/-
**Statements that insert rows.**

Rows are given by `VALUES` or, a single one, by `SET`.  Each row owns as many parameters as it has
markers, in the order of the rows; what is left belongs to the assignments on a duplicate key.

Main definitions:

* `ShardedSql.Insert` — the statement;
* `ShardedSql.Insert.columnNames`, `ShardedSql.Insert.rows` — columns and rows, however they are
  given;
* `ShardedSql.ValueRow.parameters` — the parameters of a row.

Main results:

* `ShardedSql.Insert.rows_length` — **a row for each list of expressions**.
-/

import ShardedSql.Statement.Segment

set_option relaxedAutoImplicit false
set_option autoImplicit false

namespace ShardedSql

/-- A row of `VALUES`, from its opening to its closing parenthesis. -/
structure InsertRow where
  exprs : List Expr
  start : Nat
  stop : Nat
  deriving Repr, DecidableEq, Inhabited

/-- The clause `SET`. -/
structure SetClause where
  assignments : List Assignment
  start : Nat
  stop : Nat
  deriving Repr, DecidableEq, Inhabited

/-- A statement that inserts rows. -/
structure Insert where
  table : TableRef
  /-- The column list, empty when there is none. -/
  columns : List ColumnRef := []
  /-- The place of the parenthesis that closes the column list. -/
  columnsStop : Option Nat := none
  values : List InsertRow := []
  set : Option SetClause := none
  /-- What is assigned on a duplicate key. -/
  onDuplicate : List Assignment := []
  deriving Repr, DecidableEq, Inhabited

/-- A row with the place of its parameters among those of the statement. -/
structure ValueRow where
  exprs : List Expr
  offset : Nat
  deriving Repr, DecidableEq, Inhabited

/-- How many parameters a row has. -/
def ValueRow.count (r : ValueRow) : Nat := markerCount r.exprs

/-- The parameters of a row, as far as they are there. -/
def ValueRow.parameters {α : Type} (r : ValueRow) (all : List α) : List α :=
  (all.drop r.offset).take r.count

namespace Insert

/-- A statement with `VALUES`. -/
def ofValues (table : TableRef) (columns : List ColumnRef) (columnsStop : Nat)
    (values : List InsertRow) : Insert :=
  { table := table, columns := columns, columnsStop := some columnsStop, values := values }

/-- The names of the columns that rows have values for. -/
def columnNames (i : Insert) : List String :=
  match i.set with
  | some s => s.assignments.map fun a => a.column.name
  | none => i.columns.map (·.name)

/-- The expressions of each row. -/
def rowExprs (i : Insert) : List (List Expr) :=
  match i.set with
  | some s => [s.assignments.map (·.value)]
  | none => i.values.map (·.exprs)

/-- Rows from their expressions, the first of which has its parameters at `offset`. -/
def rowsFrom (offset : Nat) : List (List Expr) → List ValueRow
  | [] => []
  | exprs :: rest => ⟨exprs, offset⟩ :: rowsFrom (offset + markerCount exprs) rest

/-- The rows. -/
def rows (i : Insert) : List ValueRow := rowsFrom 0 i.rowExprs

@[simp] theorem rowsFrom_length (offset : Nat) (exprs : List (List Expr)) :
    (rowsFrom offset exprs).length = exprs.length := by
  induction exprs generalizing offset with
  | nil => rfl
  | cons e rest ih => simp [rowsFrom, ih]

@[simp] theorem rows_length (i : Insert) : i.rows.length = i.rowExprs.length := by
  simp [rows]

/-- The place of a column among those that rows have values for. -/
def columnIndex? (i : Insert) (column : String) : Option Nat :=
  i.columnNames.findIdx? fun c => Text.sameName c column

/-- The place of the first byte of the first row and of the last byte of the last one. -/
def valuesSpan? (i : Insert) : Option (Nat × Nat) := do
  let first ← i.values.head?
  let last ← i.values.getLast?
  some (first.start, last.stop)

/-- How many parameters the rows have. -/
def rowParameterCount (i : Insert) : Nat :=
  i.rows.foldr (fun row n => row.count + n) 0

end Insert

end ShardedSql
