/-
**A queue of cursors that are each in order.**

The queue stands on the smallest of the rows that the cursors stand on; of equal rows the one of
the earliest cursor comes first.  The cursor of the current row only moves on when the next row is
asked for, so its values can be read until then.

The other cursors wait in a heap.  Integers next to numbers in floating point need not be in a
total order, since large integers are rounded before such a comparison; which of the rows comes
next then depends on the places that they have in the heap.

Main definitions:

* `ShardedSql.CursorQueue` — the cursors, and which of them wait with which values;
* `ShardedSql.CursorQueue.start` — moving every cursor to its first row;
* `ShardedSql.CursorQueue.next` — moving to the next row of all;
* `ShardedSql.CursorQueue.size` — how many rows are left at most.

Main results:

* `ShardedSql.CursorQueue.size_pop` — moving to a row uses one up.
-/

import ShardedSql.Heap
import ShardedSql.SortKey

set_option relaxedAutoImplicit false
set_option autoImplicit false

namespace ShardedSql

/-- A cursor that waits on a row. -/
structure Waiting where
  /-- The values of the row that count. -/
  values : List Value
  /-- The number of the cursor. -/
  cursor : Nat
  deriving Repr, DecidableEq, Inhabited

/-- Cursors in the order of the rows that they stand on. -/
structure CursorQueue where
  cursors : List Cursor
  keys : List SortKey
  /-- The cursors that wait, the one with the smallest row at the top. -/
  waiting : Heap Waiting := .empty
  /-- The cursor of the current row. -/
  current : Option Nat := none

namespace CursorQueue

/-- The order of two cursors that wait: by their rows, then by their numbers. -/
def order (keys : List SortKey) (a b : Waiting) : Ordering :=
  (SortKey.orderRows keys a.values b.values).then (compare a.cursor b.cursor)

/-- One of two cursors that wait has no larger row than the other. -/
def before (keys : List SortKey) (a b : Waiting) : Bool := (order keys a b).isLE

/-- How many rows are left at most: those that wait and those that were not reached yet. -/
def size (q : CursorQueue) : Nat :=
  q.waiting.size + q.cursors.foldr (fun c n => c.rest.length + n) 0

/-- Moves a cursor on, and lets it wait if there is a row. -/
def pull (q : CursorQueue) (i : Nat) : Outcome Unit × CursorQueue :=
  match q.cursors[i]? with
  | none => (.error ((Fault.merge "Unknown cursor").note "cursor" (toString i)), q)
  | some c =>
      let (x, c) := c.advance
      let q := { q with cursors := q.cursors.set i c }
      match x with
      | .error f => (.error f, q)
      | .ok false => (.ok (), q)
      | .ok true =>
          match q.keys.mapM fun k => c.cell k.index with
          | .error f => (.error f, q)
          | .ok values =>
              (.ok (), { q with waiting := q.waiting.push (before q.keys) ⟨values, i⟩ })

/-- Moves the cursors with some numbers on, until one fails. -/
def pullAll (q : CursorQueue) : List Nat → Outcome Unit × CursorQueue
  | [] => (.ok (), q)
  | i :: rest =>
      match q.pull i with
      | (.error f, q) => (.error f, q)
      | (.ok (), q) => pullAll q rest

/-- A queue of cursors, each of them moved to its first row. -/
def start (keys : List SortKey) (cursors : List Cursor) : Outcome Unit × CursorQueue :=
  pullAll { cursors := cursors, keys := keys } (List.range cursors.length)

/-- Moves to the row of the first cursor that waits. -/
def pop (q : CursorQueue) : Bool × CursorQueue :=
  match q.waiting.pop (before q.keys) with
  | none => (false, q)
  | some (w, rest) => (true, { q with waiting := rest, current := some w.cursor })

/-- Taking a cursor out of those that wait does not touch the cursors. -/
@[simp] theorem cursors_pop (q : CursorQueue) : q.pop.2.cursors = q.cursors := by
  unfold pop
  split <;> rfl

theorem size_pop {q : CursorQueue} (h : q.pop.1 = true) : q.pop.2.size + 1 = q.size := by
  unfold pop at h ⊢
  split at h
  · cases h
  · rename_i w rest hw
    have := Heap.size_pop hw
    simp only [size]
    omega

/-- Moves to the next row of all, and tells whether there is one.  A cursor that fails does not
wait any longer. -/
def next (q : CursorQueue) : Outcome Bool × CursorQueue :=
  match q.current with
  | none => (.ok q.pop.1, q.pop.2)
  | some i =>
      match { q with current := none }.pull i with
      | (.error f, q) => (.error f, q)
      | (.ok (), q) => (.ok q.pop.1, q.pop.2)

/-- The cursor of the current row. -/
def cursor? (q : CursorQueue) : Outcome Cursor :=
  match q.current.bind fun i => q.cursors[i]? with
  | some c => .ok c
  | none => .error (Fault.merge "Order by merge is not positioned on a row")

/-- The value of a column in the current row. -/
def value (q : CursorQueue) (column : Nat) : Outcome Value := do
  let c ← q.cursor?
  c.cell column

/-- The values of the current row. -/
def row (q : CursorQueue) : Outcome Row := do
  let c ← q.cursor?
  c.row

/-- Closes all cursors, none of which waits any longer. -/
def close (q : CursorQueue) : Outcome Unit × CursorQueue :=
  let (x, cursors) := Cursor.closeAll q.cursors
  (x, { q with cursors := cursors, waiting := .empty, current := none })

end CursorQueue

end ShardedSql
