/-
**Merging the cursors of a statement.**

A single cursor is read as it is.  Otherwise the rows are grouped, ordered or chained as the
statement asks, and its window is cut out of them as the dialect asks.  If anything fails every
cursor is closed.

Main definitions:

* `ShardedSql.Merged.encryptorsFor` — the encryptors of the columns of a cursor;
* `ShardedSql.MergedRows.ofCursors` — the merged rows of a statement;
* `ShardedSql.Merged.ofCursors` — the merged result of a statement.

Main results:

* `ShardedSql.Merged.isClosed_of_ofCursors_error` — **a merge that fails leaves no cursor open**.
-/

import ShardedSql.Dialect
import ShardedSql.Merged
import ShardedSql.Rule
import ShardedSql.Statement

set_option relaxedAutoImplicit false
set_option autoImplicit false

namespace ShardedSql

/-- A merge that failed, with the cursors as they are then. -/
structure MergeFailure where
  fault : Fault
  cursors : List Cursor

/-- An outcome that does not touch the cursors. -/
def MergeFailure.guard {α : Type} (cursors : List Cursor) (x : Outcome α) :
    Except MergeFailure α :=
  x.mapError fun f => ⟨f, cursors⟩

/-! ### Encrypted columns -/

namespace Merged

/-- The table that a selected column may belong to. -/
def mayOwn (owner : Option String) (t : TableRef) : Bool :=
  match owner with
  | some o => t.isCalled o
  | none => true

/-- The encrypted column that an item of the select list returns under a label. -/
def selectedColumn? (rule : EncryptRule) (tables : List TableRef) (label : String) :
    Projection → Option EncryptColumn
  | .column owner name alias? _ _ =>
      if Text.sameName (alias?.getD name) label then
        (tables.filter (mayOwn owner)).findSome? fun t => rule.column? t.name name
      else none
  | _ => none

/-- The encryptor of the column with a label: of the encrypted column that is selected under it,
or else of the one that has it as its cipher column. -/
def encryptorFor? (rule : EncryptRule) (s : Select) (label : String) : Option Encryptor :=
  let selected := s.projections.items.findSome? (selectedColumn? rule s.tables label)
  let column := selected <|> s.tables.findSome? fun t => rule.byCipher? t.name label
  column.map (·.encryptor)

/-- The encryptors of the columns with some labels. -/
def encryptorsFor (rule : EncryptRule) (s : Select) (labels : List String) :
    List (Option Encryptor) :=
  if rule.isEmpty then [] else labels.map (encryptorFor? rule s)

end Merged

/-! ### Rows -/

namespace MergedRows

/-- Groups that are made while the rows are read. -/
def streamGroups (keys : List SortKey) (groupColumns : List Nat) (columns : List AggregateColumn)
    (cursors : List Cursor) : Except MergeFailure MergedRows :=
  match GroupStream.start keys groupColumns columns cursors with
  | (.error f, s) => .error ⟨f, s.queue.cursors⟩
  | (.ok (), s) => .ok (.grouped s)

/-- Groups that are made at once. -/
def holdGroups (keys : List SortKey) (groupColumns : List Nat) (columns : List AggregateColumn)
    (cursors : List Cursor) : Except MergeFailure MergedRows :=
  match Group.ofCursors groupColumns keys columns cursors with
  | (.error f, cursors) => .error ⟨f, cursors⟩
  | (.ok rows, cursors) => .ok (.held rows none cursors)

/-- Rows in order. -/
def order (keys : List SortKey) (cursors : List Cursor) : Except MergeFailure MergedRows :=
  match CursorQueue.start keys cursors with
  | (.error f, q) => .error ⟨f, q.cursors⟩
  | (.ok (), q) => .ok (.ordered q)

/-- The groups of a statement with sort keys. -/
def group (s : Select) (labels : List String) (keys : List SortKey) (cursors : List Cursor) :
    Except MergeFailure MergedRows := do
  let columns ← MergeFailure.guard cursors (AggregateColumn.ofSelect s labels)
  let groupKeys ← MergeFailure.guard cursors (SortKey.ofItems s labels s.groupBy)
  let groupColumns := groupKeys.map (·.index)
  if s.groupsAreOrdered then streamGroups keys groupColumns columns cursors
  else holdGroups keys groupColumns columns cursors

/-- The merged rows of a statement, by the labels of its first cursor. -/
def ofCursors (s : Select) (labels : List String) (cursors : List Cursor) :
    Except MergeFailure MergedRows := do
  let keys ← MergeFailure.guard cursors (SortKey.ofItems s labels s.order)
  if !s.groupBy.isEmpty || s.hasAggregation then group s labels keys cursors
  else if s.projections.distinctRows then
    holdGroups keys (List.range labels.length) [] cursors
  else if keys.isEmpty then pure (.chained cursors 0)
  else order keys cursors

end MergedRows

/-! ### Results -/

namespace Merged

/-- The cut of a window in a dialect.  A limit counts the rows of the window; a bound on the number
of a row counts all rows. -/
def firstNumber (d : Dialect) (w : Window) : Int :=
  match d with
  | .oracle => Signed.held (w.skipped + 1)
  | .sqlServer => Signed.held (w.skipped + 1)
  | _ => 1

/-- Cuts a window out of merged rows. -/
def cutOut (d : Dialect) (w : Window) (rows : MergedRows) : Except MergeFailure Merged :=
  match Cut.skip w.skipped.toNat rows with
  | (.error f, rows) => .error ⟨f, rows.cursors⟩
  | (.ok exhausted, rows) =>
      .ok { rows := rows, cut := some ⟨w.written?, firstNumber d w, exhausted⟩ }

/-- The window of a statement, cut out of its merged rows. -/
def cutFor (d : Dialect) (s : Select) (parameters : List Value) (rows : MergedRows) :
    Except MergeFailure Merged := do
  match ← MergeFailure.guard rows.cursors (s.window parameters) with
  | none => pure { rows := rows }
  | some w => if w.isGiven then cutOut d w rows else pure { rows := rows }

/-- The merged result of a statement that selects rows, before a failure closes the cursors. -/
def ofSelect (rule : Rule) (d : Dialect) (s : Select) (parameters : List Value) (first : Cursor)
    (rest : List Cursor) : Except MergeFailure Merged := do
  let encryptors := encryptorsFor rule.encrypt s first.labels
  match rest with
  | [] => pure { rows := .single first, encryptors := encryptors }
  | _ => do
      let rows ← MergedRows.ofCursors s first.labels (first :: rest)
      let merged ← cutFor d s parameters rows
      pure { merged with encryptors := encryptors }

/-- A failure after the cursors are closed. -/
def closing {α : Type} (x : Except MergeFailure α) : Except MergeFailure α :=
  x.mapError fun e => { e with cursors := Cursor.released e.cursors }

/-- The merged result of a statement. -/
def ofCursors (rule : Rule) (d : Dialect) (statement : Statement) (parameters : List Value)
    (cursors : List Cursor) : Except MergeFailure Merged :=
  match cursors, statement with
  | [], _ => .ok { rows := .held [] none [] }
  | first :: rest, .select s => closing (ofSelect rule d s parameters first rest)
  | cursors, _ => .ok { rows := .chained cursors 0 }

theorem isClosed_of_closing_error {α : Type} {x : Except MergeFailure α} {e : MergeFailure}
    (h : closing x = .error e) {c : Cursor} (hc : c ∈ e.cursors) : c.isClosed = true := by
  cases x with
  | ok a => cases h
  | error f =>
      cases h
      exact Cursor.isClosed_closeAll hc

theorem isClosed_of_ofCursors_error {rule : Rule} {d : Dialect} {statement : Statement}
    {parameters : List Value} {cursors : List Cursor} {e : MergeFailure}
    (h : ofCursors rule d statement parameters cursors = .error e) {c : Cursor}
    (hc : c ∈ e.cursors) : c.isClosed = true := by
  unfold ofCursors at h
  split at h
  · cases h
  · exact isClosed_of_closing_error h hc
  · cases h

end Merged

end ShardedSql
