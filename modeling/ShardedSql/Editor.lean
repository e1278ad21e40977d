/-
**Editors: what finds the edits of a statement.**

Main definitions:

* `ShardedSql.Editor` — the ten editors;
* `ShardedSql.Editor.applies`, `ShardedSql.Editor.servesMerging` — when an editor is needed;
* `ShardedSql.Editor.edits` — the edits that an editor finds;
* `ShardedSql.Editor.runAll` — the edits of some editors, one after another.

Main results:

* `ShardedSql.Editor.all_nodup`, `ShardedSql.Editor.mem_all` — **every editor works once**.
-/

import ShardedSql.Editing.Encryption
import ShardedSql.Editing.Rows
import ShardedSql.Editing.SelectList
import ShardedSql.Editing.Tables

set_option relaxedAutoImplicit false
set_option autoImplicit false

namespace ShardedSql

/-- What finds edits of one kind. -/
inductive Editor where
  | tables
  | projections
  | orderBy
  | distinctAggregations
  | offset
  | rowCount
  | keyColumn
  | keyAssignment
  | insertRows
  | encryption
  deriving Repr, DecidableEq, Inhabited

namespace Editor

/-- All editors in the order in which they work. -/
def all : List Editor :=
  [.tables, .projections, .orderBy, .distinctAggregations, .offset, .rowCount, .keyColumn,
    .keyAssignment, .insertRows, .encryption]

theorem all_nodup : all.Nodup := by decide

theorem mem_all (e : Editor) : e ∈ all := by cases e <;> decide

/-- The name of an editor. -/
def name : Editor → String
  | .tables => "table"
  | .projections => "projections"
  | .orderBy => "order_by"
  | .distinctAggregations => "aggregation_distinct"
  | .offset => "offset"
  | .rowCount => "row_count"
  | .keyColumn => "generated_key_insert_column"
  | .keyAssignment => "generated_key_assignment"
  | .insertRows => "insert_values"
  | .encryption => "encrypt"

/-- The editor is only needed where the rows of several placements are merged. -/
def servesMerging : Editor → Bool
  | .projections => true
  | .orderBy => true
  | .distinctAggregations => true
  | .offset => true
  | .rowCount => true
  | _ => false

/-- A property of a statement that selects rows. -/
def ofSelect (p : Select → Bool) : Statement → Bool
  | .select s => p s
  | _ => false

/-- The rows of an insertion have to be written anew. -/
def writesRowsAnew (rule : Rule) (r : Routed) : Bool :=
  (Editing.valuesInsert? r).any fun i =>
    i.valuesSpan?.isSome &&
      (rule.isSharded i.table.name || (rule.encrypt.columns? i.table.name).isSome ||
        r.key.any (·.generated))

/-- The editor is needed for a statement. -/
def applies (rule : Rule) (r : Routed) : Editor → Bool
  | .tables => Editing.hasShardedTable rule r.sql.statement
  | .projections => ofSelect (fun s => !s.derived.isEmpty) r.sql.statement
  | .orderBy => ofSelect (fun s => s.orderGenerated && s.groupByStop.isSome) r.sql.statement
  | .distinctAggregations =>
      ofSelect (fun s => s.aggregations.any (·.distinct)) r.sql.statement
  | .offset => ofSelect (fun s => (s.pagination.bind (·.offset)).isSome) r.sql.statement
  | .rowCount => ofSelect (fun s => (s.pagination.bind (·.rowCount)).isSome) r.sql.statement
  | .keyColumn =>
      (Editing.generatedKey? r).any fun p => p.1.set.isNone && p.1.columnsStop.isSome
  | .keyAssignment => (Editing.generatedKey? r).any fun p => p.1.set.isSome
  | .insertRows => writesRowsAnew rule r
  | .encryption => Editing.hasEncryptedTable rule.encrypt r.sql.statement

/-- Edits of a statement that selects rows. -/
def onSelect (edits : Select → Editing (List Edit)) : Statement → Editing (List Edit)
  | .select s => edits s
  | _ => pure []

/-- The edits that an editor finds. -/
def edits (rule : Rule) (r : Routed) : Editor → Editing (List Edit)
  | .tables => pure (Editing.tables rule r.sql.statement)
  | .projections => onSelect (fun s => pure (Editing.addedProjections s)) r.sql.statement
  | .orderBy => onSelect (fun s => pure (Editing.addedOrder s)) r.sql.statement
  | .distinctAggregations =>
      onSelect (fun s => pure (Editing.distinctAggregations s)) r.sql.statement
  | .offset => onSelect (fun s => Editing.shardOffset s r.sql.parameters) r.sql.statement
  | .rowCount => onSelect (fun s => Editing.shardRowCount s r.sql.parameters) r.sql.statement
  | .keyColumn => pure (Editing.keyColumn r)
  | .keyAssignment => Editing.keyAssignment r
  | .insertRows => Editing.insertRows r
  | .encryption => Editing.encryption rule.encrypt r.sql

/-- The editor is passed over. -/
def isSkipped (rule : Rule) (r : Routed) (e : Editor) : Bool :=
  (e.servesMerging && r.routing.isSingle) || !e.applies rule r

/-- Adds the edits that an editor finds to a draft. -/
def run (rule : Rule) (r : Routed) (e : Editor) : Editing PUnit := do
  let found ← e.edits rule r
  modify fun d => { d with edits := d.edits ++ found }

/-- Adds the edits that some editors find, one after another, where they are needed. -/
def runAll (rule : Rule) (r : Routed) : List Editor → Editing PUnit
  | [] => pure ()
  | e :: rest => do
      if !e.isSkipped rule r then e.run rule r
      runAll rule r rest

end Editor

end ShardedSql
