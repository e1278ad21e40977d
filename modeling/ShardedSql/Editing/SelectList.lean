/-
**Edits that make the rows of several shards fit to be merged.**

Main definitions:

* `ShardedSql.Editing.addedProjections` — columns added to the select list;
* `ShardedSql.Editing.addedOrder` — an order taken from the groups;
* `ShardedSql.Editing.distinctAggregations` — what is aggregated in place of an aggregation of
  distinct values;
* `ShardedSql.Editing.shardOffset`, `ShardedSql.Editing.shardRowCount` — the window that shards are
  asked for.
-/

import ShardedSql.Editing

set_option relaxedAutoImplicit false
set_option autoImplicit false

namespace ShardedSql

namespace Editing

/-! ### Columns and order -/

/-- The columns that are added to the select list. -/
def addedProjections (s : Select) : List Edit :=
  [.projections (s.projections.stop + 1) (s.derived.map DerivedProjection.render)]

/-- The order that is taken from the groups. -/
def addedOrder (s : Select) : List Edit :=
  match s.groupByStop, s.generatedOrderText with
  | some stop, some text => [.orderBy (stop + 1) text]
  | _, _ => []

/-- What is aggregated instead of an aggregation of distinct values.  An alias that the statement
has stays behind it. -/
def distinctAggregation? (n : Select.Numbered) : Option Edit :=
  match n.item with
  | .aggregation _ true _ inner alias? start stop =>
      let text :=
        match alias?, n.distinctAlias? with
        | none, some derived => inner ++ " AS " ++ derived
        | _, _ => inner
      some (.distinctAggregation start stop text)
  | _ => none

/-- The edits of the aggregations of distinct values. -/
def distinctAggregations (s : Select) : List Edit := s.numbered.filterMap distinctAggregation?

/-! ### Windows -/

/-- Gives a bound another number: in the text where it is a literal, and else as a parameter. -/
def revise (bound : PageBound) (revised : Int) (edit : Nat → Nat → Int → Edit) :
    Editing (List Edit) :=
  match bound.number with
  | .literal _ => pure [edit bound.start bound.stop revised]
  | .marker index => do
      let b ← requireWhole "Pagination parameters require a standard parameter builder"
      bindWhole (b.replace index (.int (Int64.ofInt revised)))
      pure []

/-- Shards are asked for rows from the first one on. -/
def shardOffset (s : Select) (parameters : List Value) : Editing (List Edit) := do
  match ← ofOutcome (s.window parameters) with
  | none => pure []
  | some w =>
      match w.clause.offset with
      | none => pure []
      | some bound => revise bound w.shardOffset Edit.offset

/-- The number that is written for the number of rows that shards are asked for.  An open bound on
the number of a row is one more. -/
def writtenRowCount (w : Window) (bound : PageBound) (count : Int) : Int :=
  if bound.opened && w.clause.style = .rowNumber then Signed.held (count + 1) else count

/-- Shards are asked for all rows up to the end of the window. -/
def shardRowCount (s : Select) (parameters : List Value) : Editing (List Edit) := do
  match ← ofOutcome (s.window parameters) with
  | none => pure []
  | some w =>
      match w.clause.rowCount, w.shardRowCount? s with
      | some bound, some count => revise bound (writtenRowCount w bound count) Edit.rowCount
      | _, _ => pure []

end Editing

end ShardedSql
