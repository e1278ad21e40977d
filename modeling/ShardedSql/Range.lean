/-
**Ranges of values.**

Main definitions:

* `ShardedSql.Range` — a lower and an upper bound, each open, closed or absent;
* `ShardedSql.Range.contains` — the values of a range;
* `ShardedSql.Range.intersect` — the tighter bound on each side;
* `ShardedSql.Range.isEmpty` — no value can be in the range, as far as that can be told;
* `ShardedSql.Range.closedInts?` — the integers of a range with two bounds, as its least and its
  largest.
-/

import ShardedSql.Signed
import ShardedSql.Value.Order

set_option relaxedAutoImplicit false
set_option autoImplicit false

namespace ShardedSql

/-- One end of a range. -/
inductive Bound where
  | unbounded
  | inclusive (v : Value)
  | exclusive (v : Value)
  deriving DecidableEq, Repr, Inhabited

/-- The value that a bound names. -/
def Bound.value? : Bound → Option Value
  | .unbounded => none
  | .inclusive v => some v
  | .exclusive v => some v

/-- The bound leaves its own value out. -/
def Bound.isExclusive : Bound → Bool
  | .exclusive _ => true
  | _ => false

/-- The bound names an integer. -/
def Bound.isInt (b : Bound) : Bool :=
  match b.value? with
  | some (.int _) => true
  | _ => false

/-- The values between two bounds. -/
structure Range where
  /-- The lower end. -/
  lower : Bound
  /-- The upper end. -/
  upper : Bound
  deriving DecidableEq, Repr, Inhabited

namespace Range

/-- The range of all values. -/
def unbounded : Range := ⟨.unbounded, .unbounded⟩

/-- The values from `a` to `b`, both included. -/
def closed (a b : Value) : Range := ⟨.inclusive a, .inclusive b⟩

/-! ### Members -/

/-- The value is not below the range. -/
def aboveLower (r : Range) (v : Value) : Bool :=
  match r.lower with
  | .unbounded => true
  | .inclusive l => (v.order .first l).isGE
  | .exclusive l => (v.order .first l).isGT

/-- The value is not above the range. -/
def belowUpper (r : Range) (v : Value) : Bool :=
  match r.upper with
  | .unbounded => true
  | .inclusive u => (v.order .first u).isLE
  | .exclusive u => (v.order .first u).isLT

/-- The value is in the range. -/
def contains (r : Range) (v : Value) : Bool := r.aboveLower v && r.belowUpper v

/-! ### Intersection -/

/-- The tighter of two bounds, where `winner` says which outcome of comparing their values makes
the first one tighter.  Of two bounds at the same value the exclusive one is. -/
def tighter (winner : Ordering) (a b : Bound) : Bound :=
  match a.value?, b.value? with
  | none, _ => b
  | _, none => a
  | some va, some vb =>
      match va.order .first vb with
      | .eq => if a.isExclusive then a else b
      | o => if o = winner then a else b

/-- The values in both ranges. -/
def intersect (r s : Range) : Range :=
  ⟨tighter .gt r.lower s.lower, tighter .lt r.upper s.upper⟩

/-! ### Emptiness -/

/-- The least integer that a lower bound admits. -/
def leastInt? : Bound → Option Int64
  | .unbounded => none
  | .inclusive v => v.toInt.toOption
  | .exclusive v => v.toInt.toOption.bind fun n => Signed.word? (n.toInt + 1)

/-- The largest integer that an upper bound admits. -/
def largestInt? : Bound → Option Int64
  | .unbounded => none
  | .inclusive v => v.toInt.toOption
  | .exclusive v => v.toInt.toOption.bind fun n => Signed.word? (n.toInt - 1)

/-- The integers of a range whose bounds both stand for integers, as the least and the largest. -/
def closedInts? (r : Range) : Option (Int64 × Int64) := do
  let lower ← leastInt? r.lower
  let upper ← largestInt? r.upper
  some (lower, upper)

/-- The order of the bounds leaves no room between them. -/
def boundsCross (r : Range) : Bool :=
  match r.lower, r.upper with
  | .unbounded, _ => false
  | _, .unbounded => false
  | .inclusive l, .inclusive u => (l.order .first u).isGT
  | .inclusive l, .exclusive u => (l.order .first u).isGE
  | .exclusive l, .inclusive u => (l.order .first u).isGE
  | .exclusive l, .exclusive u => (l.order .first u).isGE

/-- No value can be in the range.  Between two integers only integers are looked for, so the range
of what is above 1 and below 2 is empty. -/
def isEmpty (r : Range) : Bool :=
  if r.lower.isInt && r.upper.isInt then
    match r.closedInts? with
    | some (l, u) => u.toInt < l.toInt
    | none => r.boundsCross
  else r.boundsCross

/-! ### Text -/

/-- The range as it is shown to a user. -/
def render (r : Range) : String :=
  let lower :=
    match r.lower with
    | .inclusive v => "[" ++ v.render
    | .exclusive v => "(" ++ v.render
    | .unbounded => "(-inf"
  let upper :=
    match r.upper with
    | .inclusive v => v.render ++ "]"
    | .exclusive v => v.render ++ ")"
    | .unbounded => "+inf)"
  lower ++ ".." ++ upper

end Range

end ShardedSql
