/-
**Merged results: the rows of several cursors as one result.**

Main definitions:

* `ShardedSql.MergedRows` — the five ways in which rows are merged;
* `ShardedSql.Cut` — the part of the rows that a window leaves;
* `ShardedSql.Merged` — merged rows with a cut and with the encryptors of their columns;
* `ShardedSql.Merged.next`, `ShardedSql.Merged.value`, `ShardedSql.Merged.cells`,
  `ShardedSql.Merged.close` — reading them.

Main results:

* `ShardedSql.Merged.isClosed_release` — **releasing a merged result closes every cursor of it**.
-/

import ShardedSql.Encryptor
import ShardedSql.Grouping

set_option relaxedAutoImplicit false
set_option autoImplicit false

namespace ShardedSql

/-! ### Rows -/

/-- The ways in which the rows of cursors are merged. -/
inductive MergedRows where
  /-- Rows that were made at once, and the cursors that they were made from. -/
  | held (rest : List Row) (current : Option Row) (cursors : List Cursor)
  /-- The rows of each cursor after those of the ones before it; `reading` is the number of the
  cursor that is being read. -/
  | chained (cursors : List Cursor) (reading : Nat)
  /-- The rows of a single cursor. -/
  | single (cursor : Cursor)
  /-- The rows of all cursors in order. -/
  | ordered (queue : CursorQueue)
  /-- Groups of rows, in order. -/
  | grouped (stream : GroupStream)

namespace MergedRows

/-- Moves on in the cursors from the one with a number, at most `n` times to another cursor. -/
def chainNext : Nat → List Cursor → Nat → Outcome Bool × MergedRows
  | 0, cursors, i => (.ok false, .chained cursors i)
  | n + 1, cursors, i =>
      match cursors[i]? with
      | none => (.ok false, .chained cursors i)
      | some c =>
          let (x, c) := c.advance
          let cursors := cursors.set i c
          match x with
          | .error f => (.error f, .chained cursors i)
          | .ok true => (.ok true, .chained cursors i)
          | .ok false => chainNext n cursors (i + 1)

/-- Moves to the next row, and tells whether there is one. -/
def next : MergedRows → Outcome Bool × MergedRows
  | .held [] _ cursors => (.ok false, .held [] none cursors)
  | .held (row :: rest) _ cursors => (.ok true, .held rest (some row) cursors)
  | .chained cursors i => chainNext (cursors.length + 1) cursors i
  | .single c =>
      let (x, c) := c.advance
      (x, .single c)
  | .ordered q =>
      let (x, q) := q.next
      (x, .ordered q)
  | .grouped s =>
      let (x, s) := s.next
      (x, .grouped s)

/-- The value of a column in the current row. -/
def value (column : Nat) : MergedRows → Outcome Value
  | .held _ (some row) _ => rowValue row column
  | .held _ none _ => .error noCurrentRow
  | .chained cursors i =>
      match cursors[i]? with
      | some c => c.cell column
      | none =>
          .error ((Fault.merge "Iterator merge is exhausted").note "column" (toString column))
  | .single c => c.cell column
  | .ordered q => q.value column
  | .grouped s => s.value column

/-- Closes all cursors.  Rows that were made at once can still be read. -/
def close : MergedRows → Outcome Unit × MergedRows
  | .held rest _ cursors =>
      let (x, cursors) := Cursor.closeAll cursors
      (x, .held rest none cursors)
  | .chained cursors i =>
      let (x, cursors) := Cursor.closeAll cursors
      (x, .chained cursors i)
  | .single c =>
      let (x, c) := c.close
      (x.mapError Cursor.fault, .single c)
  | .ordered q =>
      let (x, q) := q.close
      (x, .ordered q)
  | .grouped s =>
      let (x, s) := s.close
      (x, .grouped s)

/-- The cursors in the order in which they were given. -/
def cursors : MergedRows → List Cursor
  | .held _ _ cursors => cursors
  | .chained cursors _ => cursors
  | .single c => [c]
  | .ordered q => q.cursors
  | .grouped s => s.queue.cursors

theorem isClosed_close {m : MergedRows} {c : Cursor} (h : c ∈ m.close.2.cursors) :
    c.isClosed = true := by
  cases m with
  | held rest current cs => exact Cursor.isClosed_closeAll h
  | chained cs i => exact Cursor.isClosed_closeAll h
  | single d =>
      simp only [close, cursors, List.mem_singleton] at h
      subst h
      exact Cursor.isClosed_close d
  | ordered q => exact Cursor.isClosed_closeAll h
  | grouped s => exact Cursor.isClosed_closeAll h

end MergedRows

/-! ### Windows -/

/-- The part of the rows that a window leaves. -/
structure Cut where
  /-- The number of the last row, when there is a limit. -/
  last : Option Int
  /-- The number of the next row. -/
  number : Int
  /-- The rows ended before the window began. -/
  exhausted : Bool
  deriving Repr, DecidableEq, Inhabited

namespace Cut

/-- Skips at most `n` rows, and tells whether the rows ended before that. -/
def skip : Nat → MergedRows → Outcome Bool × MergedRows
  | 0, m => (.ok false, m)
  | n + 1, m =>
      match m.next with
      | (.error f, m) => (.error f, m)
      | (.ok false, m) => (.ok true, m)
      | (.ok true, m) => skip n m

/-- Moves to the next row inside the cut, and tells whether there is one. -/
def next (c : Cut) (m : MergedRows) : Outcome Bool × Cut × MergedRows :=
  if c.exhausted then (.ok false, c, m)
  else
    match c.last with
    | none =>
        let (x, m) := m.next
        (x, c, m)
    | some last =>
        let moved := { c with number := Signed.held (c.number + 1) }
        if c.number ≤ last then
          let (x, m) := m.next
          (x, moved, m)
        else (.ok false, moved, m)

end Cut

/-! ### Merged results -/

/-- Merged rows with a cut and with the encryptors of their columns. -/
structure Merged where
  rows : MergedRows
  cut : Option Cut := none
  /-- The encryptors of the columns that hold encrypted values. -/
  encryptors : List (Option Encryptor) := []

namespace Merged

/-- Moves to the next row, and tells whether there is one. -/
def next (m : Merged) : Outcome Bool × Merged :=
  match m.cut with
  | none =>
      let (x, rows) := m.rows.next
      (x, { m with rows := rows })
  | some cut =>
      let (x, cut, rows) := cut.next m.rows
      (x, { m with rows := rows, cut := some cut })

/-- The value of a column, decrypted. -/
def value (m : Merged) (column : Nat) : Outcome Value := do
  let v ← m.rows.value column
  match m.encryptors[column]?.join with
  | none => pure v
  | some e =>
      (e.decrypt v).mapError fun f =>
        ((Fault.merge "Failed to decrypt column").note "column" (toString column)).because f

/-- The values of `n` columns from the one with a number on, decrypted; the first that cannot be
read ends it. -/
def cells (m : Merged) (column : Nat) : Nat → Outcome Row
  | 0 => .ok []
  | n + 1 => do
      let v ← m.value column
      let rest ← cells m (column + 1) n
      pure (v :: rest)

/-- Closes all cursors. -/
def close (m : Merged) : Outcome Unit × Merged :=
  let (x, rows) := m.rows.close
  (x, { m with rows := rows })

/-- The cursors in the order in which they were given. -/
def cursors (m : Merged) : List Cursor := m.rows.cursors

/-- The cursors after a merged result is not used any longer: all are closed, and failures to close
them are passed over. -/
def release (m : Merged) : List Cursor := m.close.2.cursors

theorem isClosed_release {m : Merged} {c : Cursor} (h : c ∈ m.release) : c.isClosed = true :=
  MergedRows.isClosed_close h

end Merged

end ShardedSql
