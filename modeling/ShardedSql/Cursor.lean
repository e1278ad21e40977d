/-
**Cursors: the rows that a data source returns, one after another.**

A cursor stands before its first row, on a row, or behind its last one.  Any call on it may fail:
a plan says which calls do.

Main definitions:

* `ShardedSql.FaultPlan` — which calls on a cursor fail, and why;
* `ShardedSql.Cursor` — the rows, the place among them, and the calls so far;
* `ShardedSql.Cursor.next`, `ShardedSql.Cursor.value`, `ShardedSql.Cursor.close` — the calls;
* `ShardedSql.Cursor.advance`, `ShardedSql.Cursor.row` — the same for merging, which reports every
  failure as its own;
* `ShardedSql.Cursor.foldRows` — a computation over all remaining rows;
* `ShardedSql.Cursor.materialize` — reading all remaining rows at once;
* `ShardedSql.Cursor.closeAll` — closing several cursors.

Main results:

* `ShardedSql.Cursor.isClosed_close` — **a cursor counts as closed even when closing fails**;
* `ShardedSql.Cursor.isClosed_closeAll` — **closing several cursors closes each of them**.
-/

import ShardedSql.Text.Ascii
import ShardedSql.Value

set_option relaxedAutoImplicit false
set_option autoImplicit false

namespace ShardedSql

/-- The values of a row. -/
abbrev Row := List Value

/-- The value of a column in a row. -/
def rowValue (row : Row) (column : Nat) : Outcome Value :=
  match row[column]? with
  | some v => .ok v
  | none =>
      .error ((Fault.merge "Column index out of range")
        |>.note "column" (toString column) |>.note "column_count" (toString row.length))

/-- A value was asked for where there is no row. -/
def noCurrentRow : Fault := Fault.merge "Cursor is not positioned on a row"

/-! ### Cursors -/

/-- Which calls on a cursor fail, and why. -/
structure FaultPlan where
  /-- The failure of moving on, by how often that was asked for before. -/
  next : Nat → Option Fault := fun _ => none
  /-- The failure of reading a column, by how often moving on was asked for before. -/
  value : Nat → Nat → Option Fault := fun _ _ => none
  /-- The failure of closing, by how often that was asked for before. -/
  close : Nat → Option Fault := fun _ => none

/-- A plan without failures. -/
def FaultPlan.none : FaultPlan := {}

/-- The rows that a data source returns, with the place among them. -/
structure Cursor where
  labels : List String
  /-- The rows that were not reached yet. -/
  rest : List Row
  /-- The row that the cursor stands on. -/
  current : Option Row := none
  /-- How often moving on was asked for. -/
  nexts : Nat := 0
  /-- How often closing was asked for. -/
  closes : Nat := 0
  plan : FaultPlan := {}

namespace Cursor

/-- A cursor before some rows, on which no call fails. -/
def ofRows (labels : List String) (rows : List Row) : Cursor := { labels := labels, rest := rows }

/-- Closing was asked for. -/
def isClosed (c : Cursor) : Bool := 0 < c.closes

/-- Moves on, and tells whether there is a row. -/
def next (c : Cursor) : Outcome Bool × Cursor :=
  let asked := { c with nexts := c.nexts + 1 }
  match c.plan.next c.nexts with
  | some f => (.error f, asked)
  | none =>
      match c.rest with
      | [] => (.ok false, { asked with current := none })
      | row :: rest => (.ok true, { asked with current := some row, rest := rest })

/-- The value of a column in the row that the cursor stands on. -/
def value (c : Cursor) (column : Nat) : Outcome Value :=
  match c.plan.value c.nexts column with
  | some f => .error f
  | none =>
      match c.current with
      | some row => rowValue row column
      | none => .error noCurrentRow

/-- Closes a cursor, which then has no more rows.  If closing fails the rows stay. -/
def close (c : Cursor) : Outcome Unit × Cursor :=
  let asked := { c with closes := c.closes + 1 }
  match c.plan.close c.closes with
  | some f => (.error f, asked)
  | none => (.ok (), { asked with current := none, rest := [] })

@[simp] theorem isClosed_close (c : Cursor) : c.close.2.isClosed = true := by
  unfold close
  split <;> simp [isClosed]

/-- The place of the column with a label. -/
def indexIn (labels : List String) (label : String) : Outcome Nat :=
  match labels.findIdx? fun l => Text.sameName l label with
  | some i => .ok i
  | none => .error ((Fault.merge "Missing column in query result").note "label" label)

/-! ### Merging -/

/-- The failure of a cursor as one of merging. -/
def fault (f : Fault) : Fault :=
  if f.kind = .merge then f else (Fault.merge "Physical cursor failed").because f

/-- Moves on, and tells whether there is a row. -/
def advance (c : Cursor) : Outcome Bool × Cursor :=
  let (x, c) := c.next
  (x.mapError fault, c)

/-- The value of a column in the row that the cursor stands on. -/
def cell (c : Cursor) (column : Nat) : Outcome Value := (c.value column).mapError fault

/-- The values of the row that the cursor stands on, one for each label. -/
def row (c : Cursor) : Outcome Row := (List.range c.labels.length).mapM c.cell

/-- Closes cursors.  All are closed even if that fails; the first failure is reported. -/
def closeAll : List Cursor → Outcome Unit × List Cursor
  | [] => (.ok (), [])
  | c :: rest =>
      let (x, c) := c.close
      let (y, rest) := closeAll rest
      (match x with
        | .error f => .error (fault f)
        | .ok () => y, c :: rest)

/-- Cursors after closing them, whether or not that failed. -/
def released (cs : List Cursor) : List Cursor := (closeAll cs).2

@[simp] theorem closeAll_cursors (cs : List Cursor) :
    (closeAll cs).2 = cs.map fun c => c.close.2 := by
  induction cs with
  | nil => rfl
  | cons c rest ih => simp [closeAll, ih]

theorem isClosed_closeAll {cs : List Cursor} {c : Cursor} (h : c ∈ (closeAll cs).2) :
    c.isClosed = true := by
  rw [closeAll_cursors, List.mem_map] at h
  obtain ⟨d, _, rfl⟩ := h
  exact isClosed_close d

/-! ### All rows -/

/-- A computation over at most `n` rows. -/
def foldUpTo {σ : Type} (step : σ → Row → Outcome σ) : Nat → σ → Cursor → Outcome σ × Cursor
  | 0, s, c => (.ok s, c)
  | n + 1, s, c =>
      match c.advance with
      | (.error f, c) => (.error f, c)
      | (.ok false, c) => (.ok s, c)
      | (.ok true, c) =>
          match c.row >>= step s with
          | .error f => (.error f, c)
          | .ok s => foldUpTo step n s c

/-- A computation over all remaining rows, ended by the first failure. -/
def foldRows {σ : Type} (step : σ → Row → Outcome σ) (s : σ) (c : Cursor) :
    Outcome σ × Cursor :=
  foldUpTo step (c.rest.length + 1) s c

/-- Reads all remaining rows and closes the cursor.  The first part is a cursor before those rows,
which counts as closed as it holds nothing open; the second part is the cursor that was read. -/
def materialize (c : Cursor) : Outcome Cursor × Cursor :=
  match c.foldRows (fun rows row => .ok (rows ++ [row])) [] with
  | (.error f, c) => (.error f, c)
  | (.ok rows, c) =>
      let (x, c) := c.close
      ((x.mapError fault).map fun _ => { ofRows c.labels rows with closes := c.closes }, c)

end Cursor

end ShardedSql
