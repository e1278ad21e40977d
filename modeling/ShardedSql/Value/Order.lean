/-
**The order of values.**

Integers and numbers in floating point are compared as numbers, an integer being rounded to floating
point first.  Values of kinds that have nothing in common are ordered by kind, so any two values
can be compared, and null stands before or after all others as asked.

Main definitions:

* `ShardedSql.NullPlacement` — whether null comes first or last;
* `ShardedSql.Value.order` — the comparison.

Main results:

* `ShardedSql.Value.order_self` — **every value equals itself in the order**.
-/

import ShardedSql.Value

set_option relaxedAutoImplicit false
set_option autoImplicit false

namespace ShardedSql

/-- Where null stands among the values. -/
inductive NullPlacement where
  /-- Null is smaller than every other value. -/
  | first
  /-- Null is larger than every other value. -/
  | last
  deriving DecidableEq, Repr, Inhabited

/-- How null compares with another value. -/
def NullPlacement.ofNull : NullPlacement → Ordering
  | .first => .lt
  | .last => .gt

namespace Value

open Decimal (Binary64)

/-- The place of a kind among the kinds. -/
def rank : Value → Nat
  | .null => 0
  | .bool _ => 1
  | .int _ => 2
  | .float _ => 2
  | .text _ => 3
  | .bytes _ => 4

/-- The order of values with null placed as asked. -/
def order (nulls : NullPlacement) : Value → Value → Ordering
  | .null, .null => .eq
  | .null, _ => nulls.ofNull
  | _, .null => nulls.ofNull.swap
  | .int a, .int b => compare a.toInt b.toInt
  | .float a, .float b => a.order b
  | .int a, .float b => (Binary64.ofInt a.toInt).order b
  | .float a, .int b => a.order (Binary64.ofInt b.toInt)
  | .text a, .text b => compare a b
  | .bool a, .bool b => compare a b
  | .bytes a, .bytes b => compare a b
  | a, b => compare a.rank b.rank

@[simp] theorem order_self (nulls : NullPlacement) (v : Value) : v.order nulls v = .eq := by
  cases v <;> simp [order, Binary64.order, Std.ReflCmp.compare_self]

/-- The order with null first, which ranges use. -/
def le (a b : Value) : Bool := (a.order .first b).isLE

/-- The strict order with null first. -/
def lt (a b : Value) : Bool := (a.order .first b).isLT

end Value

end ShardedSql
