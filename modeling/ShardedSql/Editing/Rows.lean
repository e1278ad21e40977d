/-
**Edits of the rows that are inserted.**

Each placement has the rows that go to it, with the keys that were generated for them.

Main definitions:

* `ShardedSql.Editing.keyColumn`, `ShardedSql.Editing.keyAssignment` — the column of a generated
  key in the column list, and as an assignment;
* `ShardedSql.Editing.insertRows` — all rows, written anew.
-/

import ShardedSql.Editing

set_option relaxedAutoImplicit false
set_option autoImplicit false

namespace ShardedSql

namespace Editing

/-! ### Keys -/

/-- The insertion and its key, when the key was generated. -/
def generatedKey? (r : Routed) : Option (Insert × GeneratedKey) :=
  match r.sql.statement, r.key with
  | .insert i, some k => if k.generated then some (i, k) else none
  | _, _ => none

/-- Adds the column of the generated key to the column list. -/
def keyColumn (r : Routed) : List Edit :=
  match generatedKey? r with
  | some (i, k) => i.columnsStop.toList.map fun start => .insertColumns start [k.column]
  | none => []

/-- Adds the generated key to the assignments of an insertion with `SET`.  It is bound as a
parameter if the statement has any. -/
def keyAssignment (r : Routed) : Editing (List Edit) :=
  match generatedKey? r with
  | none => pure []
  | some (i, k) =>
      match i.set, k.values.head? with
      | some set, some v => do
          if r.sql.parameters.isEmpty then
            pure [.keyAssignment (set.stop + 1) k.column (.literal v)]
          else
            let b ← requireWhole "Insert set assignment requires a standard parameter builder"
            bindWhole (b.add v)
            pure [.keyAssignment (set.stop + 1) k.column .marker]
      | _, _ => pure []

/-! ### Rows -/

/-- The insertion, when its rows are given by `VALUES`. -/
def valuesInsert? (r : Routed) : Option Insert :=
  match r.sql.statement with
  | .insert i => if i.set.isNone then some i else none
  | _ => none

/-- The generated key of the row with a number, as it is written in the row. -/
def rowKey (r : Routed) (row : Nat) : Editing (List RowValue) :=
  match generatedKey? r with
  | none => pure []
  | some (_, k) =>
      match k.values[row]? with
      | none =>
          throw ((Fault.ofKind .editing "Missing generated key for insert row").note
            "row" (toString row))
      | some v =>
          if r.sql.parameters.isEmpty then pure [.literal v]
          else do
            let b ← requireGrouped "Insert values require a grouped parameter builder"
            bindGrouped (b.add row v)
            pure [.marker]

/-- The rows from the one with a number on, written anew. -/
def rowDrafts (r : Routed) (row : Nat) : List ValueRow → Editing (List RowDraft)
  | [] => pure []
  | v :: rest => do
      let key ← rowKey r row
      let drafts ← rowDrafts r (row + 1) rest
      pure (⟨v.exprs.map RowValue.expr ++ key, (r.routing.rowNodes[row]?).getD []⟩ :: drafts)

/-- Notes the column that keys are generated for, where parameters are bound row by row. -/
def noteKeyColumn (r : Routed) : Editing PUnit := do
  match generatedKey? r, (← get).binding with
  | some (_, k), .grouped b => bindGrouped { b with derivedColumn := some k.column }
  | _, _ => pure ()

/-- Writes all rows anew. -/
def insertRows (r : Routed) : Editing (List Edit) :=
  match valuesInsert? r with
  | none => pure []
  | some i =>
      match i.valuesSpan? with
      | none => pure []
      | some (start, stop) => do
          noteKeyColumn r
          let rows ← rowDrafts r 0 i.rows
          pure [.insertRows start stop rows]

end Editing

end ShardedSql
