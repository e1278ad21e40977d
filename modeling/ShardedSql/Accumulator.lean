/-
**Accumulators: aggregate functions over what the shards have aggregated.**

Counts and sums of the shards are added up, and the largest of their largest values is the largest
of all.  An average is made of the counts and sums that the shards return.  Distinct values are
returned by the shards as they are and are aggregated here.

Main definitions:

* `ShardedSql.Accumulator` — an aggregate function in progress;
* `ShardedSql.Accumulator.merge`, `ShardedSql.Accumulator.result` — taking in values, and the
  outcome so far;
* `ShardedSql.AggregateColumn` — the columns that an aggregation reads and writes.
-/

import ShardedSql.Cursor
import ShardedSql.Statement.Select

set_option relaxedAutoImplicit false
set_option autoImplicit false

namespace ShardedSql

open Decimal (Binary64)

/-- What an aggregate function keeps. -/
inductive Tally where
  /-- The sum of the values. -/
  | sum (total : Option Value)
  /-- The best of the values, which is the one that compares with any other as given. -/
  | extreme (keep : Ordering) (best : Option Value)
  /-- The sums of the counts and of the sums. -/
  | average (count sum : Option Value)
  /-- The different values in the order in which they came. -/
  | distinct (seen : List Value)
  deriving Repr, DecidableEq, Inhabited

/-- An aggregate function in progress. -/
structure Accumulator where
  kind : AggregationKind
  tally : Tally
  deriving Repr, DecidableEq, Inhabited

namespace Accumulator

/-! ### Numbers -/

/-- The sum of two integers, in floating point when it needs more than 64 bits. -/
def addInts (a b : Int64) : Value :=
  match Signed.word? (a.toInt + b.toInt) with
  | some sum => .int sum
  | none => .float ((Binary64.ofInt a.toInt).add (Binary64.ofInt b.toInt))

/-- A sum with another value.  The first value is taken as it is, and null is passed over. -/
def addTo (total : Option Value) (v : Value) : Outcome (Option Value) :=
  if v.isNull then .ok total
  else
    match total, v with
    | none, v => .ok (some v)
    | some (.int a), .int b => .ok (some (addInts a b))
    | some t, v => do
        let a ← t.toFloat
        let b ← v.toFloat
        pure (some (.float (a.add b)))

/-- A sum divided by a count, which is null when the count is zero. -/
def divide (sum count : Value) : Outcome Value := do
  let n ← count.toFloat
  if n.magnitude = 0 then pure .null
  else
    let total ← sum.toFloat
    pure (.float (total.div n))

/-! ### Values -/

/-- An aggregate function before any value. -/
def start (kind : AggregationKind) (distinct : Bool) : Accumulator :=
  match kind, distinct with
  | .max, _ => ⟨.max, .extreme .gt none⟩
  | .min, _ => ⟨.min, .extreme .lt none⟩
  | kind, true => ⟨kind, .distinct []⟩
  | .avg, false => ⟨.avg, .average none none⟩
  | kind, false => ⟨kind, .sum none⟩

/-- A sum that took a value in; it is lost when that fails. -/
def absorbed (x : Outcome (Option Value)) : Option Value :=
  match x with
  | .ok total => total
  | .error _ => none

/-- The better of the values so far and another one. -/
def better (keep : Ordering) (best : Option Value) (v : Value) : Option Value :=
  if v.isNull then best
  else
    match best with
    | none => some v
    | some b => if v.order .first b = keep then some v else best

/-- The different values with another one. -/
def seenWith (seen : List Value) (v : Value) : List Value :=
  if v.isNull || seen.contains v then seen else seen ++ [v]

/-- Takes in the values of a row: the count and the sum for an average, and else one value. -/
def merge (a : Accumulator) (values : List Value) : Outcome Unit × Accumulator :=
  match values with
  | [] => (.error ((Fault.merge "Aggregation requires a value").note "function" a.kind.name), a)
  | first :: more =>
      match a.tally with
      | .sum total =>
          let x := addTo total first
          (x.map fun _ => (), { a with tally := .sum (absorbed x) })
      | .extreme keep best => (.ok (), { a with tally := .extreme keep (better keep best first) })
      | .average count sum =>
          match more with
          | [] =>
              (.error ((Fault.merge "AVG requires derived count and sum values").note "values"
                (toString values.length)), a)
          | second :: _ =>
              match addTo count first with
              | .error f => (.error f, { a with tally := .average none sum })
              | .ok count =>
                  let x := addTo sum second
                  (x.map fun _ => (), { a with tally := .average count (absorbed x) })
      | .distinct seen => (.ok (), { a with tally := .distinct (seenWith seen first) })

/-- The outcome for the different values. -/
def ofDistinct (kind : AggregationKind) (seen : List Value) : Outcome Value := do
  let total ← seen.foldlM addTo none
  let count := Value.int (Int64.ofNat seen.length)
  match kind, total with
  | .count, _ => pure count
  | .avg, some total => divide total count
  | _, total => pure (total.getD .null)

/-- The outcome for the values so far. -/
def result (a : Accumulator) : Outcome Value :=
  match a.tally with
  | .sum (some total) => .ok total
  | .sum none => .ok (if a.kind = .count then .int 0 else .null)
  | .extreme _ best => .ok (best.getD .null)
  | .average (some count) (some sum) => divide sum count
  | .average _ _ => .ok .null
  | .distinct seen => ofDistinct a.kind seen

end Accumulator

/-! ### Columns -/

/-- The columns that an aggregation reads and writes. -/
structure AggregateColumn where
  kind : AggregationKind
  distinct : Bool := false
  /-- The column of the aggregation, which the outcome replaces. -/
  index : Nat
  /-- The columns of the count and the sum of an average. -/
  average : Option (Nat × Nat) := none
  deriving Repr, DecidableEq, Inhabited

namespace AggregateColumn

/-- The aggregation before any row. -/
def start (c : AggregateColumn) : Accumulator := Accumulator.start c.kind c.distinct

/-- The columns that are read. -/
def sources (c : AggregateColumn) : List Nat :=
  match c.average with
  | some (count, sum) => [count, sum]
  | none => [c.index]

/-- The values of a row that are aggregated. -/
def inputs (c : AggregateColumn) (row : Row) : Outcome (List Value) :=
  c.sources.mapM fun i =>
    match row[i]? with
    | some v => .ok v
    | none =>
        .error ((Fault.merge "Aggregation column out of range").note "column" (toString i))

/-- The columns of an aggregation of a statement, by the labels of a cursor. -/
def ofAggregation (labels : List String) (a : Aggregation) : Outcome AggregateColumn := do
  let average ←
    match a.average, a.distinct with
    | some (count, sum), false => do
        let count ← Cursor.indexIn labels count
        let sum ← Cursor.indexIn labels sum
        pure (some (count, sum))
    | _, _ => pure none
  let index ← Cursor.indexIn labels a.label
  pure ⟨a.kind, a.distinct, index, average⟩

/-- The columns of the aggregations of a statement, by the labels of a cursor. -/
def ofSelect (s : Select) (labels : List String) : Outcome (List AggregateColumn) :=
  s.aggregations.mapM (ofAggregation labels)

end AggregateColumn

end ShardedSql
