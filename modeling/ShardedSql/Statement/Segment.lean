/-
**The pieces of a parsed statement.**

Every piece knows where it stands in the text of the statement: the place of its first byte and the
place of its last one.

Main definitions:

* `ShardedSql.TableRef`, `ShardedSql.ColumnRef` — tables and columns as they are written;
* `ShardedSql.Expr` — literals, parameter markers, and what is not looked into;
* `ShardedSql.Predicate` — conditions, with `conjuncts` and `leaves`;
* `ShardedSql.Assignment` — a column and the expression given to it.

Main results:

* `ShardedSql.Predicate.conjuncts_and` — **the conjuncts of a conjunction are those of its parts**.
-/

import ShardedSql.Text.Ascii
import ShardedSql.Value

set_option relaxedAutoImplicit false
set_option autoImplicit false

namespace ShardedSql

/-! ### Tables and columns -/

/-- A table as a statement names it. -/
structure TableRef where
  name : String
  alias? : Option String := none
  start : Nat
  stop : Nat
  deriving Repr, DecidableEq, Inhabited

/-- A table at a place, without an alias. -/
def TableRef.ofName (name : String) (start : Nat) : TableRef :=
  { name := name, start := start, stop := start + name.utf8ByteSize - 1 }

/-- The qualifier of a column stands for the table: it is its name or its alias. -/
def TableRef.isCalled (t : TableRef) (qualifier : String) : Bool :=
  Text.sameName t.name qualifier || t.alias?.any fun a => Text.sameName a qualifier

/-- A column as a statement names it. -/
structure ColumnRef where
  /-- The table name or alias before the column. -/
  owner : Option String := none
  name : String
  start : Nat
  stop : Nat
  deriving Repr, DecidableEq, Inhabited

/-- A column at a place, without a qualifier. -/
def ColumnRef.ofName (name : String) (start : Nat) : ColumnRef :=
  { name := name, start := start, stop := start + name.utf8ByteSize - 1 }

/-- A column at a place, with a qualifier. -/
def ColumnRef.qualified (owner name : String) (start : Nat) : ColumnRef :=
  { owner := some owner, name := name, start := start,
    stop := start + owner.utf8ByteSize + name.utf8ByteSize }

/-! ### Expressions -/

/-- An expression that stands for a value. -/
inductive Expr where
  | literal (value : Value) (start stop : Nat)
  /-- The parameter with a number, counted from zero through the statement. -/
  | marker (index start stop : Nat)
  /-- Anything else, which is not looked into. -/
  | raw (text : String) (start stop : Nat)
  deriving Repr, DecidableEq, Inhabited

namespace Expr

/-- The marker `?` at a place. -/
def markerAt (index start : Nat) : Expr := .marker index start start

/-- The place of the first byte. -/
def start : Expr → Nat
  | .literal _ start _ => start
  | .marker _ start _ => start
  | .raw _ start _ => start

/-- The place of the last byte. -/
def stop : Expr → Nat
  | .literal _ _ stop => stop
  | .marker _ _ stop => stop
  | .raw _ _ stop => stop

/-- The number of the parameter that the expression is. -/
def marker? : Expr → Option Nat
  | .marker index _ _ => some index
  | _ => none

/-- The expression is a marker. -/
def isMarker (e : Expr) : Bool := e.marker?.isSome

/-- The value that the expression stands for.  What is not looked into stands for none, and
neither does a marker without a parameter. -/
def resolve (parameters : List Value) : Expr → Option Value
  | .literal value _ _ => some value
  | .marker index _ _ => parameters[index]?
  | .raw _ _ _ => none

/-- The expression as text of a statement. -/
def render : Expr → String
  | .literal value _ _ => value.literal
  | .marker _ _ _ => "?"
  | .raw text _ _ => text

@[simp] theorem resolve_marker (parameters : List Value) (i start stop : Nat) :
    (marker i start stop).resolve parameters = parameters[i]? := rfl

end Expr

/-- How many of some expressions are markers. -/
def markerCount (exprs : List Expr) : Nat := exprs.countP Expr.isMarker

/-! ### Predicates -/

/-- The comparisons. -/
inductive Comparison where
  | eq
  | ne
  | lt
  | le
  | gt
  | ge
  deriving Repr, DecidableEq, Inhabited

/-- A condition on rows. -/
inductive Predicate where
  | and (parts : List Predicate)
  | or (parts : List Predicate)
  | compare (column : ColumnRef) (op : Comparison) (right : Expr)
  | oneOf (column : ColumnRef) (list : List Expr) (negated : Bool)
  | between (column : ColumnRef) (low high : Expr) (negated : Bool)
  /-- A condition that is not looked into. -/
  | other
  deriving Repr, Inhabited

namespace Predicate

mutual

/-- The conditions that all have to hold, however the conjunctions are nested. -/
def conjuncts : Predicate → List Predicate
  | .and parts => conjunctsOf parts
  | p => [p]

/-- The conjuncts of some conditions, one after another. -/
def conjunctsOf : List Predicate → List Predicate
  | [] => []
  | p :: rest => p.conjuncts ++ conjunctsOf rest

end

mutual

/-- The conditions without parts, also those under a disjunction. -/
def leaves : Predicate → List Predicate
  | .and parts => leavesOf parts
  | .or parts => leavesOf parts
  | p => [p]

/-- The leaves of some conditions, one after another. -/
def leavesOf : List Predicate → List Predicate
  | [] => []
  | p :: rest => p.leaves ++ leavesOf rest

end

@[simp] theorem conjuncts_and (parts : List Predicate) :
    (Predicate.and parts).conjuncts = parts.flatMap conjuncts := by
  rw [conjuncts]
  induction parts with
  | nil => rfl
  | cons p rest ih => rw [conjunctsOf, ih, List.flatMap_cons]

@[simp] theorem leavesOf_eq_flatMap (parts : List Predicate) :
    leavesOf parts = parts.flatMap leaves := by
  induction parts with
  | nil => rfl
  | cons p rest ih => rw [leavesOf, ih, List.flatMap_cons]

/-- The column that a condition without parts is about. -/
def column? : Predicate → Option ColumnRef
  | .compare column _ _ => some column
  | .oneOf column _ _ => some column
  | .between column _ _ _ => some column
  | _ => none

end Predicate

/-! ### Assignments -/

/-- A column and the expression given to it. -/
structure Assignment where
  column : ColumnRef
  value : Expr
  deriving Repr, DecidableEq, Inhabited

/-- The place of the first byte. -/
def Assignment.start (a : Assignment) : Nat := a.column.start

/-- The place of the last byte. -/
def Assignment.stop (a : Assignment) : Nat := a.value.stop

end ShardedSql
