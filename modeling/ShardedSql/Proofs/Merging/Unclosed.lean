/-
**Merging does not look at whether cursors were closed.**

How often closing was asked for is part of what a cursor is, but neither moving on nor reading a
value depends on it.  So a merge of some cursors and a merge of the same cursors with that forgotten
go on alike: forgetting can be done before each step or behind it.  Merged results of cursors that
differ in nothing else give the same answers, whatever they are asked.

Main definitions:

* `ShardedSql.Cursor.unclosed` — a cursor as if closing had never been asked for; the same of
  queues, streams of groups, merged rows and merged results;
* `ShardedSql.MergeFailure.forget` — what a merge gives, with the closing of its cursors forgotten;
* `ShardedSql.Merged.answers` — what a merged result answers when it is asked;
* `ShardedSql.Merged.Alike` — two merges that cannot be told apart.

Main results:

* `ShardedSql.CursorQueue.pull_unclosed`, `ShardedSql.CursorQueue.next_unclosed`,
  `ShardedSql.GroupStream.next_unclosed`, `ShardedSql.MergedRows.next_unclosed` — moving on;
* `ShardedSql.MergedRows.ofCursors_unclosed`, `ShardedSql.Merged.ofSelect_unclosed` — merging;
* `ShardedSql.Merged.answers_unclosed` — reading;
* `ShardedSql.Merged.alike_of_unclosed_eq` — **merges of cursors that only differ in how often they
  were closed cannot be told apart**.
-/

import ShardedSql.Proofs.Merging.Closing

set_option relaxedAutoImplicit false
set_option autoImplicit false

namespace ShardedSql

/-! ### Cursors -/

namespace Cursor

/-- A cursor as if closing had never been asked for. -/
def unclosed (c : Cursor) : Cursor := { c with closes := 0 }

@[simp] theorem labels_unclosed (c : Cursor) : c.unclosed.labels = c.labels := rfl

@[simp] theorem rest_unclosed (c : Cursor) : c.unclosed.rest = c.rest := rfl

@[simp] theorem value_unclosed (c : Cursor) : c.unclosed.value = c.value := rfl

@[simp] theorem cell_unclosed (c : Cursor) : c.unclosed.cell = c.cell := rfl

@[simp] theorem row_unclosed (c : Cursor) : c.unclosed.row = c.row := rfl

@[simp] theorem advance_unclosed (c : Cursor) :
    c.unclosed.advance = (c.advance.1, c.advance.2.unclosed) := by
  unfold advance next
  cases hplan : c.plan.next c.nexts with
  | some f => simp [unclosed, hplan]
  | none => cases hrest : c.rest <;> simp [unclosed, hplan, hrest]

theorem foldUpTo_unclosed {σ : Type} (step : σ → Row → Outcome σ) (n : Nat) (s : σ) (c : Cursor) :
    foldUpTo step n s c.unclosed = ((foldUpTo step n s c).1, (foldUpTo step n s c).2.unclosed) := by
  induction n generalizing s c with
  | zero => rfl
  | succ n ih =>
      rw [foldUpTo, foldUpTo, advance_unclosed]
      generalize c.advance = moved
      obtain ⟨x, d⟩ := moved
      cases x with
      | error f => rfl
      | ok found =>
          cases found with
          | false => rfl
          | true =>
              simp only [row_unclosed]
              cases d.row >>= step s with
              | error f => rfl
              | ok s' => exact ih s' d

@[simp] theorem foldRows_unclosed {σ : Type} (step : σ → Row → Outcome σ) (s : σ) (c : Cursor) :
    c.unclosed.foldRows step s = ((c.foldRows step s).1, (c.foldRows step s).2.unclosed) :=
  foldUpTo_unclosed step _ s c

end Cursor

/-! ### A queue of cursors -/

namespace CursorQueue

/-- A queue of cursors as if closing had never been asked for. -/
def unclosed (q : CursorQueue) : CursorQueue :=
  { q with cursors := q.cursors.map Cursor.unclosed }

theorem getElem?_unclosed (q : CursorQueue) (i : Nat) :
    q.unclosed.cursors[i]? = q.cursors[i]?.map Cursor.unclosed := List.getElem?_map

@[simp] theorem size_unclosed (q : CursorQueue) : q.unclosed.size = q.size := by
  simp only [size, unclosed, List.foldr_map, Cursor.rest_unclosed]

@[simp] theorem pull_unclosed (q : CursorQueue) (i : Nat) :
    q.unclosed.pull i = ((q.pull i).1, (q.pull i).2.unclosed) := by
  rw [pull, pull, getElem?_unclosed]
  cases q.cursors[i]? with
  | none => rfl
  | some c =>
      have hset (d : Cursor) : q.unclosed.cursors.set i d.unclosed =
          (q.cursors.set i d).map Cursor.unclosed := List.map_set.symm
      simp only [Option.map_some, Cursor.advance_unclosed, hset, Cursor.cell_unclosed]
      generalize c.advance = moved
      obtain ⟨x, d⟩ := moved
      cases x with
      | error f => rfl
      | ok found =>
          cases found with
          | false => rfl
          | true =>
              have hkeys : q.unclosed.keys = q.keys := rfl
              simp only [hkeys]
              cases q.keys.mapM fun k => d.cell k.index <;> rfl

theorem pullAll_unclosed (q : CursorQueue) (idle : List Nat) :
    q.unclosed.pullAll idle = ((q.pullAll idle).1, (q.pullAll idle).2.unclosed) := by
  induction idle generalizing q with
  | nil => rfl
  | cons i idle ih =>
      rw [pullAll, pullAll, pull_unclosed]
      generalize q.pull i = pulled
      obtain ⟨x, q'⟩ := pulled
      cases x with
      | error f => rfl
      | ok _ => exact ih q'

@[simp] theorem start_unclosed (keys : List SortKey) (cursors : List Cursor) :
    start keys (cursors.map Cursor.unclosed) =
      ((start keys cursors).1, (start keys cursors).2.unclosed) := by
  have hall := pullAll_unclosed { cursors := cursors, keys := keys } (List.range cursors.length)
  rw [start, List.length_map]
  exact hall

theorem pop_unclosed (q : CursorQueue) : q.unclosed.pop = (q.pop.1, q.pop.2.unclosed) := by
  have hpop : q.unclosed.waiting.pop (before q.unclosed.keys) = q.waiting.pop (before q.keys) := rfl
  rw [pop, pop, hpop]
  cases q.waiting.pop (before q.keys) <;> rfl

@[simp] theorem next_unclosed (q : CursorQueue) :
    q.unclosed.next = (q.next.1, q.next.2.unclosed) := by
  have hcurrent : q.unclosed.current = q.current := rfl
  rw [next, next, hcurrent]
  cases q.current with
  | none => simp only [pop_unclosed]
  | some i =>
      have hpull := pull_unclosed { q with current := none } i
      have hidle : unclosed { q with current := none } = { q.unclosed with current := none } := rfl
      rw [hidle] at hpull
      simp only [hpull]
      generalize pull { q with current := none } i = pulled
      obtain ⟨x, q'⟩ := pulled
      cases x with
      | error f => rfl
      | ok _ => simp only [pop_unclosed]

theorem cursor?_unclosed (q : CursorQueue) :
    q.unclosed.cursor? = q.cursor?.map Cursor.unclosed := by
  have hcurrent : q.unclosed.current = q.current := rfl
  rw [cursor?, cursor?, hcurrent]
  cases q.current with
  | none => rfl
  | some i =>
      rw [Option.bind_some, Option.bind_some, getElem?_unclosed]
      cases q.cursors[i]? <;> rfl

@[simp] theorem value_unclosed (q : CursorQueue) : q.unclosed.value = q.value := by
  funext column
  rw [value, value, cursor?_unclosed]
  cases q.cursor? <;> rfl

@[simp] theorem row_unclosed (q : CursorQueue) : q.unclosed.row = q.row := by
  rw [row, row, cursor?_unclosed]
  cases q.cursor? <;> rfl

end CursorQueue

/-! ### Groups -/

namespace GroupStream

/-- A stream of groups as if closing had never been asked for. -/
def unclosed (s : GroupStream) : GroupStream := { s with queue := s.queue.unclosed }

@[simp] theorem keyedRow_unclosed (s : GroupStream) : s.unclosed.keyedRow = s.keyedRow := by
  have hqueue : s.unclosed.queue = s.queue.unclosed := rfl
  rw [keyedRow, keyedRow, hqueue, CursorQueue.row_unclosed]
  rfl

@[simp] theorem start_unclosed (keys : List SortKey) (groupColumns : List Nat)
    (columns : List AggregateColumn) (cursors : List Cursor) :
    start keys groupColumns columns (cursors.map Cursor.unclosed) =
      ((start keys groupColumns columns cursors).1,
        (start keys groupColumns columns cursors).2.unclosed) := by
  rw [start, start, CursorQueue.start_unclosed]
  generalize CursorQueue.start keys cursors = started
  obtain ⟨x, q⟩ := started
  cases x with
  | error f => rfl
  | ok _ =>
      simp only [CursorQueue.next_unclosed]
      generalize q.next = moved
      obtain ⟨y, q'⟩ := moved
      cases y <;> rfl

theorem gather_unclosed (n : Nat) (s : GroupStream) (g : Group) (row : Row) :
    gather n s.unclosed g row = ((gather n s g row).1, (gather n s g row).2.unclosed) := by
  induction n using Nat.strongRecOn generalizing s g row with
  | ind n ih =>
      have hqueue : s.unclosed.queue.next = (s.queue.next.1, s.queue.next.2.unclosed) :=
        s.queue.next_unclosed
      have hcolumns : s.unclosed.columns = s.columns := rfl
      rw [gather, gather, hcolumns, hqueue]
      cases g.mergeInto s.columns row with
      | error f => rfl
      | ok g =>
          simp only
          generalize s.queue.next = moved
          obtain ⟨x, q⟩ := moved
          cases x with
          | error f => rfl
          | ok found =>
              cases found with
              | false => rfl
              | true =>
                  have hkeyed : keyedRow { s.unclosed with
                      queue := q.unclosed, columns := s.columns, pending := true } =
                    keyedRow { s with queue := q, pending := true } :=
                    keyedRow_unclosed { s with queue := q, pending := true }
                  simp only [hkeyed]
                  cases keyedRow { s with queue := q, pending := true } with
                  | error f => rfl
                  | ok kr =>
                      obtain ⟨key, row⟩ := kr
                      simp only
                      split
                      · cases n with
                        | zero => rfl
                        | succ n =>
                            exact ih n (Nat.lt_succ_self n)
                              { s with queue := q, pending := true } g row
                      · rfl

@[simp] theorem next_unclosed (s : GroupStream) :
    s.unclosed.next = (s.next.1, s.next.2.unclosed) := by
  have hpending : s.unclosed.pending = s.pending := rfl
  have hsize : s.unclosed.queue.size = s.queue.size := s.queue.size_unclosed
  have hcolumns : s.unclosed.columns = s.columns := rfl
  rw [next, next, hpending, hsize, hcolumns, keyedRow_unclosed]
  split
  · cases s.keyedRow with
    | error f => rfl
    | ok kr =>
        obtain ⟨key, row⟩ := kr
        simp only [gather_unclosed]
        generalize gather s.queue.size s (Group.start s.columns key row) row = gathered
        obtain ⟨x, s'⟩ := gathered
        cases x with
        | error f => rfl
        | ok g =>
            have hcolumns' : s'.unclosed.columns = s'.columns := rfl
            simp only [hcolumns']
            cases g.finish s'.columns <;> rfl
  · rfl

end GroupStream

namespace Group

theorem collect_unclosed (groupColumns : List Nat) (columns : List AggregateColumn)
    (gs : List Group) (cursors : List Cursor) :
    collect groupColumns columns gs (cursors.map Cursor.unclosed) =
      ((collect groupColumns columns gs cursors).1,
        (collect groupColumns columns gs cursors).2.map Cursor.unclosed) := by
  induction cursors generalizing gs with
  | nil => rfl
  | cons c cursors ih =>
      rw [List.map_cons, collect, collect, Cursor.foldRows_unclosed]
      generalize c.foldRows (addRow groupColumns columns) gs = folded
      obtain ⟨x, d⟩ := folded
      cases x with
      | error f => rfl
      | ok gs' => simp only [ih, List.map_cons]

@[simp] theorem ofCursors_unclosed (groupColumns : List Nat) (keys : List SortKey)
    (columns : List AggregateColumn) (cursors : List Cursor) :
    ofCursors groupColumns keys columns (cursors.map Cursor.unclosed) =
      ((ofCursors groupColumns keys columns cursors).1,
        (ofCursors groupColumns keys columns cursors).2.map Cursor.unclosed) := by
  simp only [ofCursors, collect_unclosed]

end Group

/-! ### Merged rows -/

namespace MergeFailure

/-- A merge that failed, with the closing of its cursors forgotten. -/
def unclosed (e : MergeFailure) : MergeFailure :=
  { e with cursors := e.cursors.map Cursor.unclosed }

variable {α β : Type}

/-- What a merge gives, with the closing of its cursors forgotten. -/
def forget (f : α → α) (x : Except MergeFailure α) : Except MergeFailure α :=
  match x with
  | .error e => .error e.unclosed
  | .ok a => .ok (f a)

@[simp] theorem guard_unclosed (cursors : List Cursor) (x : Outcome α) :
    guard (cursors.map Cursor.unclosed) x = forget id (guard cursors x) := by
  cases x <;> rfl

/-- What is forgotten before a step can be forgotten behind it. -/
theorem forget_bind {f : α → α} {g : β → β} {x : Except MergeFailure α}
    {k k' : α → Except MergeFailure β} (h : ∀ a, k' (f a) = forget g (k a)) :
    (forget f x >>= k') = forget g (x >>= k) := by
  cases x with
  | error e => rfl
  | ok a => exact h a

end MergeFailure

open MergeFailure (forget forget_bind guard_unclosed)

namespace MergedRows

/-- Merged rows as if closing had never been asked for. -/
def unclosed : MergedRows → MergedRows
  | .held rest current cursors => .held rest current (cursors.map Cursor.unclosed)
  | .chained cursors i => .chained (cursors.map Cursor.unclosed) i
  | .single c => .single c.unclosed
  | .ordered q => .ordered q.unclosed
  | .grouped s => .grouped s.unclosed

theorem cursors_unclosed (m : MergedRows) :
    m.unclosed.cursors = m.cursors.map Cursor.unclosed := by
  cases m <;> rfl

theorem chainNext_unclosed (n : Nat) (cursors : List Cursor) (i : Nat) :
    chainNext n (cursors.map Cursor.unclosed) i =
      ((chainNext n cursors i).1, (chainNext n cursors i).2.unclosed) := by
  induction n generalizing cursors i with
  | zero => rfl
  | succ n ih =>
      rw [chainNext, chainNext, List.getElem?_map]
      cases cursors[i]? with
      | none => rfl
      | some c =>
          simp only [Option.map_some, Cursor.advance_unclosed, ← List.map_set]
          generalize c.advance = moved
          obtain ⟨x, d⟩ := moved
          cases x with
          | error f => rfl
          | ok found =>
              cases found with
              | true => rfl
              | false => exact ih (cursors.set i d) (i + 1)

@[simp] theorem next_unclosed (m : MergedRows) :
    m.unclosed.next = (m.next.1, m.next.2.unclosed) := by
  cases m with
  | held rest current cursors => cases rest <;> rfl
  | chained cursors i =>
      rw [unclosed, next, next, List.length_map]
      exact chainNext_unclosed _ cursors i
  | single c => simp only [unclosed, next, Cursor.advance_unclosed]
  | ordered q => simp only [unclosed, next, CursorQueue.next_unclosed]
  | grouped s => simp only [unclosed, next, GroupStream.next_unclosed]

@[simp] theorem value_unclosed (m : MergedRows) (column : Nat) :
    m.unclosed.value column = m.value column := by
  cases m with
  | held rest current cursors => cases current <;> rfl
  | chained cursors i =>
      rw [unclosed, value, value, List.getElem?_map]
      cases cursors[i]? <;> rfl
  | single c => rfl
  | ordered q => simp only [unclosed, value, CursorQueue.value_unclosed]
  | grouped s => rfl

theorem streamGroups_unclosed (keys : List SortKey) (groupColumns : List Nat)
    (columns : List AggregateColumn) (cursors : List Cursor) :
    streamGroups keys groupColumns columns (cursors.map Cursor.unclosed) =
      forget unclosed (streamGroups keys groupColumns columns cursors) := by
  rw [streamGroups, streamGroups, GroupStream.start_unclosed]
  generalize GroupStream.start keys groupColumns columns cursors = started
  obtain ⟨x, s⟩ := started
  cases x <;> rfl

theorem holdGroups_unclosed (keys : List SortKey) (groupColumns : List Nat)
    (columns : List AggregateColumn) (cursors : List Cursor) :
    holdGroups keys groupColumns columns (cursors.map Cursor.unclosed) =
      forget unclosed (holdGroups keys groupColumns columns cursors) := by
  rw [holdGroups, holdGroups, Group.ofCursors_unclosed]
  generalize Group.ofCursors groupColumns keys columns cursors = made
  obtain ⟨x, after⟩ := made
  cases x <;> rfl

theorem order_unclosed (keys : List SortKey) (cursors : List Cursor) :
    order keys (cursors.map Cursor.unclosed) = forget unclosed (order keys cursors) := by
  rw [order, order, CursorQueue.start_unclosed]
  generalize CursorQueue.start keys cursors = started
  obtain ⟨x, q⟩ := started
  cases x <;> rfl

theorem group_unclosed (s : Select) (labels : List String) (keys : List SortKey)
    (cursors : List Cursor) :
    group s labels keys (cursors.map Cursor.unclosed) =
      forget unclosed (group s labels keys cursors) := by
  simp only [group, guard_unclosed]
  refine forget_bind fun columns => ?_
  refine forget_bind fun groupKeys => ?_
  simp only [id]
  split
  · exact streamGroups_unclosed keys _ columns cursors
  · exact holdGroups_unclosed keys _ columns cursors

/-- **However rows are merged, closing can be forgotten before or behind it.** -/
theorem ofCursors_unclosed (s : Select) (labels : List String) (cursors : List Cursor) :
    ofCursors s labels (cursors.map Cursor.unclosed) =
      forget unclosed (ofCursors s labels cursors) := by
  simp only [ofCursors, guard_unclosed]
  refine forget_bind fun keys => ?_
  simp only [id]
  split
  · exact group_unclosed s labels keys cursors
  · split
    · exact holdGroups_unclosed keys _ [] cursors
    · split
      · rfl
      · exact order_unclosed keys cursors

end MergedRows

/-! ### Merged results -/

namespace Cut

theorem skip_unclosed (n : Nat) (m : MergedRows) :
    skip n m.unclosed = ((skip n m).1, (skip n m).2.unclosed) := by
  induction n generalizing m with
  | zero => rfl
  | succ n ih =>
      rw [skip, skip, MergedRows.next_unclosed]
      generalize m.next = moved
      obtain ⟨x, m'⟩ := moved
      cases x with
      | error f => rfl
      | ok found =>
          cases found with
          | false => rfl
          | true => exact ih m'

theorem next_unclosed (c : Cut) (m : MergedRows) :
    c.next m.unclosed = ((c.next m).1, (c.next m).2.1, (c.next m).2.2.unclosed) := by
  unfold next
  split
  · rfl
  · split
    · simp only [MergedRows.next_unclosed]
    · simp only
      split
      · simp only [MergedRows.next_unclosed]
      · rfl

end Cut

namespace Merged

/-- A merged result as if closing had never been asked for. -/
def unclosed (m : Merged) : Merged := { m with rows := m.rows.unclosed }

@[simp] theorem next_unclosed (m : Merged) : m.unclosed.next = (m.next.1, m.next.2.unclosed) := by
  have hcut : m.unclosed.cut = m.cut := rfl
  have hrows : m.unclosed.rows = m.rows.unclosed := rfl
  rw [next, next, hcut, hrows]
  cases m.cut with
  | none => simp only [MergedRows.next_unclosed, unclosed]
  | some cut => simp only [Cut.next_unclosed, unclosed]

@[simp] theorem value_unclosed (m : Merged) (column : Nat) :
    m.unclosed.value column = m.value column := by
  have hrows : m.unclosed.rows = m.rows.unclosed := rfl
  rw [value, value, hrows, MergedRows.value_unclosed]
  rfl

theorem cutFor_unclosed (d : Dialect) (s : Select) (parameters : List Value) (rows : MergedRows) :
    cutFor d s parameters rows.unclosed = forget unclosed (cutFor d s parameters rows) := by
  simp only [cutFor, MergedRows.cursors_unclosed, guard_unclosed]
  refine forget_bind fun window => ?_
  cases window with
  | none => rfl
  | some w =>
      simp only [id]
      split
      · rw [cutOut, cutOut, Cut.skip_unclosed]
        generalize Cut.skip w.skipped.toNat rows = skipped
        obtain ⟨x, rows'⟩ := skipped
        cases x with
        | error f => simp only [MergedRows.cursors_unclosed]; rfl
        | ok exhausted => rfl
      · rfl

/-- **A merge of cursors whose closing is forgotten is the merge with that forgotten.** -/
theorem ofSelect_unclosed (rule : Rule) (d : Dialect) (s : Select) (parameters : List Value)
    (first : Cursor) (rest : List Cursor) :
    ofSelect rule d s parameters first.unclosed (rest.map Cursor.unclosed) =
      forget unclosed (ofSelect rule d s parameters first rest) := by
  unfold ofSelect
  cases rest with
  | nil => rfl
  | cons second rest =>
      have hrows := MergedRows.ofCursors_unclosed s first.labels (first :: second :: rest)
      simp only [List.map_cons, Cursor.labels_unclosed] at hrows ⊢
      rw [hrows]
      refine forget_bind fun rows => ?_
      rw [cutFor_unclosed]
      exact forget_bind fun merged => rfl

/-! ### Answers -/

/-- What a merged result answers when it is asked. -/
inductive Answer where
  | moved (x : Outcome Bool)
  | value (x : Outcome Value)

/-- The answer of a merged result. -/
def answer (m : Merged) : Request → Answer
  | .next => .moved m.next.1
  | .value column => .value (m.value column)

/-- The answers of a merged result that is asked one thing after another. -/
def answers (m : Merged) : List Request → List Answer
  | [] => []
  | call :: calls => m.answer call :: (m.ask call).answers calls

/-- **The answers do not depend on whether cursors were closed.** -/
theorem answers_unclosed (m : Merged) (calls : List Request) :
    m.unclosed.answers calls = m.answers calls := by
  induction calls generalizing m with
  | nil => rfl
  | cons call calls ih =>
      cases call with
      | next => rw [answers, answers, answer, answer, ask, ask, next_unclosed, ih]
      | value column => rw [answers, answers, answer, answer, ask, ask, value_unclosed, ih]

/-- Two merges cannot be told apart: they fail alike, or their results give the same answers. -/
def Alike (x y : Except MergeFailure Merged) : Prop :=
  match x, y with
  | .error e, .error e' => e.fault = e'.fault
  | .ok m, .ok m' => ∀ calls, m.answers calls = m'.answers calls
  | _, _ => False

theorem Alike.symm {x y : Except MergeFailure Merged} (h : Alike x y) : Alike y x := by
  cases x <;> cases y
  · exact Eq.symm h
  · exact h
  · exact h
  · exact fun calls => (h calls).symm

theorem Alike.trans {x y z : Except MergeFailure Merged} (h : Alike x y) (h' : Alike y z) :
    Alike x z := by
  cases x <;> cases y <;> cases z
  · exact Eq.trans h h'
  · exact h'
  · cases h
  · cases h
  · cases h
  · cases h
  · exact h'
  · exact fun calls => (h calls).trans (h' calls)

theorem alike_closing_forget (x : Except MergeFailure Merged) :
    Alike (closing (forget unclosed x)) (closing x) := by
  cases x with
  | error e => rfl
  | ok m => exact m.answers_unclosed

variable (rule : Rule) (d : Dialect) (statement : Statement) (parameters : List Value)

theorem alike_unclosed (cursors : List Cursor) :
    Alike (ofCursors rule d statement parameters (cursors.map Cursor.unclosed))
      (ofCursors rule d statement parameters cursors) := by
  cases cursors with
  | nil => exact fun calls => rfl
  | cons first rest =>
      cases statement with
      | select s =>
          have hselect := ofSelect_unclosed rule d s parameters first rest
          rw [List.map_cons, ofCursors, hselect, ofCursors]
          exact alike_closing_forget _
      | _ => exact answers_unclosed { rows := .chained (first :: rest) 0 }

/-- **Merges of cursors that only differ in how often they were closed cannot be told apart.** -/
theorem alike_of_unclosed_eq {cursors cursors' : List Cursor}
    (h : cursors.map Cursor.unclosed = cursors'.map Cursor.unclosed) :
    Alike (ofCursors rule d statement parameters cursors)
      (ofCursors rule d statement parameters cursors') := by
  have hleft := alike_unclosed rule d statement parameters cursors
  rw [h] at hleft
  exact hleft.symm.trans (alike_unclosed rule d statement parameters cursors')

end Merged

end ShardedSql
