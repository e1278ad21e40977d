/-
**Groups: rows with the same values in some columns, aggregated into one row.**

When the shards return their rows in the order of the groups, groups are made while the rows are
read.  Otherwise all rows are read first.

Main definitions:

* `ShardedSql.Group` — a group in progress;
* `ShardedSql.Group.ofCursors` — all groups of the rows of some cursors;
* `ShardedSql.GroupStream` — groups made one after another from a queue of cursors.

Main results:

* `ShardedSql.Group.addTo_length` — **a row adds at most one group**;
* `ShardedSql.Group.sortKeyed_perm` — **sorting loses no row**.
-/

import ShardedSql.Accumulator
import ShardedSql.Cursor.Queue
import ShardedSql.Sorting

set_option relaxedAutoImplicit false
set_option autoImplicit false

namespace ShardedSql

/-- The values of a row in some columns. -/
def groupKey (columns : List Nat) (row : Row) : Outcome (List Value) :=
  columns.mapM (rowValue row)

/-- A group in progress. -/
structure Group where
  /-- The values that its rows have in common. -/
  key : List Value
  /-- Its first row. -/
  first : Row
  /-- Its aggregations. -/
  tallies : List Accumulator
  deriving Repr, DecidableEq, Inhabited

namespace Group

/-- Takes a row in to some aggregations. -/
def mergeRow (row : Row) :
    List AggregateColumn → List Accumulator → Outcome (List Accumulator)
  | c :: columns, a :: accumulators => do
      let values ← c.inputs row
      let (x, a) := a.merge values
      x
      let rest ← mergeRow row columns accumulators
      pure (a :: rest)
  | _, accumulators => .ok accumulators

/-- The first row with every aggregation replaced by its outcome. -/
def finish (columns : List AggregateColumn) (g : Group) : Outcome Row := do
  (columns.zip g.tallies).foldlM (fun row p => do
    let v ← p.2.result
    pure (row.set p.1.index v)) g.first

/-! ### All rows at once -/

/-- A group of one row, before its aggregations. -/
def start (columns : List AggregateColumn) (key : List Value) (row : Row) : Group :=
  ⟨key, row, columns.map AggregateColumn.start⟩

/-- A row taken in to its group. -/
def mergeInto (columns : List AggregateColumn) (row : Row) (g : Group) : Outcome Group := do
  let tallies ← mergeRow row columns g.tallies
  pure { g with tallies := tallies }

/-- Takes a row in to the group with its key, which is added if there is none. -/
def addTo (columns : List AggregateColumn) (key : List Value) (row : Row) :
    List Group → Outcome (List Group)
  | [] => do
      let g ← mergeInto columns row (start columns key row)
      pure [g]
  | g :: rest =>
      if g.key = key then do
        let g ← mergeInto columns row g
        pure (g :: rest)
      else do
        let rest ← addTo columns key row rest
        pure (g :: rest)

theorem addTo_length {columns : List AggregateColumn} {key : List Value} {row : Row}
    {gs out : List Group} (h : addTo columns key row gs = .ok out) :
    gs.length ≤ out.length ∧ out.length ≤ gs.length + 1 := by
  induction gs generalizing out with
  | nil =>
      cases hm : mergeInto columns row (start columns key row) with
      | error f => simp [addTo, hm, bind, Except.bind] at h
      | ok g =>
          simp only [addTo, hm, bind, Except.bind, pure, Except.pure, Except.ok.injEq] at h
          simp [← h]
  | cons g rest ih =>
      simp only [addTo] at h
      split at h
      · cases hm : mergeInto columns row g with
        | error f => simp [hm, bind, Except.bind] at h
        | ok g' =>
            simp only [hm, bind, Except.bind, pure, Except.pure, Except.ok.injEq] at h
            simp [← h]
      · cases hr : addTo columns key row rest with
        | error f => simp [hr, bind, Except.bind] at h
        | ok rest' =>
            simp only [hr, bind, Except.bind, pure, Except.pure, Except.ok.injEq] at h
            have hl := ih hr
            simp only [← h, List.length_cons]
            omega

/-- Takes a row in to the groups so far. -/
def addRow (groupColumns : List Nat) (columns : List AggregateColumn) (gs : List Group)
    (row : Row) : Outcome (List Group) := do
  let key ← groupKey groupColumns row
  addTo columns key row gs

/-- The groups of the rows of some cursors, after those so far, ended by the first failure. -/
def collect (groupColumns : List Nat) (columns : List AggregateColumn) (gs : List Group) :
    List Cursor → Outcome (List Group) × List Cursor
  | [] => (.ok gs, [])
  | c :: rest =>
      match c.foldRows (addRow groupColumns columns) gs with
      | (.error f, c) => (.error f, c :: rest)
      | (.ok gs, c) =>
          let (x, rest) := collect groupColumns columns gs rest
          (x, c :: rest)

/-- The row of a group, with the values by which it is ordered. -/
def finishKeyed (columns : List AggregateColumn) (keys : List SortKey) (g : Group) :
    Outcome (List Value × Row) := do
  let row ← g.finish columns
  let values ← SortKey.extract keys row
  pure (values, row)

/-- Rows in the order of their keys; rows with equal ones stay as they are.  If that order need
not be total then the steps of the sort are fixed. -/
def sortKeyed (keys : List SortKey) (rows : List (List Value × Row)) : List Row :=
  let sorted :=
    if SortKey.mixesNumbers keys (rows.map (·.1)) then
      Sorting.sort (fun a b => (SortKey.orderRows keys a.1 b.1).isLT) rows
    else rows.mergeSort fun a b => (SortKey.orderRows keys a.1 b.1).isLE
  sorted.map (·.2)

theorem sortKeyed_perm (keys : List SortKey) (rows : List (List Value × Row)) :
    (sortKeyed keys rows).Perm (rows.map (·.2)) := by
  unfold sortKeyed
  refine List.Perm.map _ ?_
  split
  · exact Sorting.sort_perm _ _
  · exact List.mergeSort_perm _ _

/-- The rows of some groups, in order.  Without sort keys they stay in the order in which the groups
came. -/
def rowsOf (columns : List AggregateColumn) (keys : List SortKey) (gs : List Group) :
    Outcome (List Row) := do
  let rows ← gs.mapM (finishKeyed columns keys)
  pure (sortKeyed keys rows)

/-- The rows of the groups of all rows of some cursors, and the cursors after reading them. -/
def ofCursors (groupColumns : List Nat) (keys : List SortKey) (columns : List AggregateColumn)
    (cursors : List Cursor) : Outcome (List Row) × List Cursor :=
  let (x, cursors) := collect groupColumns columns [] cursors
  (x >>= rowsOf columns keys, cursors)

end Group

/-! ### One group after another -/

/-- Groups made from a queue of cursors that are in the order of the groups. -/
structure GroupStream where
  queue : CursorQueue
  groupColumns : List Nat
  columns : List AggregateColumn
  /-- The queue stands on a row that belongs to no group yet. -/
  pending : Bool
  /-- The row of the group that was made last. -/
  current : Option Row := none

namespace GroupStream

/-- A stream of groups from some cursors, and whether making it failed. -/
def start (keys : List SortKey) (groupColumns : List Nat) (columns : List AggregateColumn)
    (cursors : List Cursor) : Outcome Unit × GroupStream :=
  let stream (pending : Bool) (q : CursorQueue) : GroupStream :=
    { queue := q, groupColumns := groupColumns, columns := columns, pending := pending }
  match CursorQueue.start keys cursors with
  | (.error f, q) => (.error f, stream false q)
  | (.ok (), q) =>
      match q.next with
      | (.error f, q) => (.error f, stream false q)
      | (.ok pending, q) => (.ok (), stream pending q)

/-- The row that the queue stands on, and its key. -/
def keyedRow (s : GroupStream) : Outcome (List Value × Row) := do
  let row ← s.queue.row
  let key ← groupKey s.groupColumns row
  pure (key, row)

/-- Takes a row and at most `n` rows behind it in to a group, as long as they have its key. -/
def gather : Nat → GroupStream → Group → Row → Outcome Group × GroupStream
  | n, s, g, row =>
      match g.mergeInto s.columns row with
      | .error f => (.error f, s)
      | .ok g =>
          match s.queue.next with
          | (.error f, q) => (.error f, { s with queue := q })
          | (.ok false, q) => (.ok g, { s with queue := q, pending := false })
          | (.ok true, q) =>
              let s := { s with queue := q, pending := true }
              match s.keyedRow with
              | .error f => (.error f, s)
              | .ok (key, row) =>
                  if key = g.key then
                    match n with
                    | 0 => (.ok g, s)
                    | n + 1 => gather n s g row
                  else (.ok g, s)

/-- Makes the next group, and tells whether there is one. -/
def next (s : GroupStream) : Outcome Bool × GroupStream :=
  if s.pending then
    match s.keyedRow with
    | .error f => (.error f, s)
    | .ok (key, row) =>
        match gather s.queue.size s (Group.start s.columns key row) row with
        | (.error f, s) => (.error f, s)
        | (.ok g, s) =>
            match g.finish s.columns with
            | .error f => (.error f, s)
            | .ok row => (.ok true, { s with current := some row })
  else (.ok false, { s with current := none })

/-- The value of a column in the row of the group that was made last. -/
def value (s : GroupStream) (column : Nat) : Outcome Value :=
  match s.current with
  | some row => rowValue row column
  | none => .error (Fault.merge "Group by merge is not positioned on a row")

/-- Closes all cursors, after which there are no more groups. -/
def close (s : GroupStream) : Outcome Unit × GroupStream :=
  let (x, q) := s.queue.close
  (x, { s with queue := q, pending := false, current := none })

end GroupStream

end ShardedSql
