/-
**The failure of a cursor is not mistaken for its end.**

Rows are merged in different ways, and each of them reads ahead: a queue moves every cursor to its
first row, the cursor of the current row is moved on late, a group ends before a row that was read
to find that out, and groups that are made at once are made of all rows.  A cursor may fail at any of
these calls.  Merged rows that are read to the end without an error are complete nevertheless: no
call failed, every cursor said that it has no more rows, and every row came to light once.

Main definitions:

* `ShardedSql.MergedRows.row?` — the row whose values are read;
* `ShardedSql.Group.Folds` — a row is that of the group of some rows;
* `ShardedSql.Way` — the ways in which the rows of cursors are merged, with all keys and
  aggregations;
* `ShardedSql.Way.Surfaces` — how rows of cursors come to light in a row;
* `ShardedSql.Drains`, `ShardedSql.Way.Reads` — reading merged rows to the end, and making them
  before that;
* `ShardedSql.Way.Stands` — what merged rows have before them while none of the calls failed.

Main results:

* `ShardedSql.MergedRows.value_of_row?` — a value is that of the row, or the cursor fails to read
  it;
* `ShardedSql.GroupStream.Lined.next`, `ShardedSql.Group.ofCursors_folds` — groups are made of rows
  that are still to come;
* `ShardedSql.Way.Stands.next` — **moving on brings rows to light that are still to come**;
* `ShardedSql.Way.exists_reads` — reading comes to an end;
* `ShardedSql.Way.ofCursors_eq_make` — the rows of every statement are merged in one of the ways;
* `ShardedSql.Way.reads_complete` — **what is read to the end without an error is complete, and an
  error of a cursor is the error of the whole**.
-/

import Mathlib.Data.List.Perm.Basic
import ShardedSql.Proofs.Grouping
import ShardedSql.Proofs.Merging.Unread

set_option relaxedAutoImplicit false
set_option autoImplicit false

namespace ShardedSql

open Cursor (Reports)

/-! ### The row whose values are read -/

namespace MergedRows

/-- The row whose values are read. -/
def row? : MergedRows → Option Row
  | .held _ current _ => current
  | .chained cursors i => (Cursor.standingAt? cursors i).map (·.values)
  | .single c => c.current
  | .ordered q => q.standing?.map (·.values)
  | .grouped s => s.current

end MergedRows

theorem Cursor.cell_of_standing? {c : Cursor} {p : PhysicalRow} (h : c.standing? = some p)
    (column : Nat) : c.cell column = rowValue p.values column ∨
      ∃ f, c.value column = .error f ∧ c.cell column = .error (fault f) := by
  obtain ⟨row, hrow, rfl⟩ := Option.map_eq_some_iff.1 h
  unfold cell
  cases hvalue : c.value column with
  | error f => exact .inr ⟨f, rfl, rfl⟩
  | ok v =>
      refine .inl ?_
      unfold value at hvalue
      cases hplan : c.plan.value c.nexts column with
      | some f => simp [hplan] at hvalue
      | none =>
          rw [hplan, hrow] at hvalue
          exact hvalue.symm

/-- The queue stands on the row that its current cursor stands on. -/
theorem CursorQueue.exists_cursor?_eq {q : CursorQueue} {p : PhysicalRow}
    (h : q.standing? = some p) : ∃ c ∈ q.cursors, q.cursor? = .ok c ∧ c.standing? = some p := by
  obtain ⟨i, hi, hstanding⟩ := Option.bind_eq_some_iff.1 h
  obtain ⟨c, hget, hc⟩ := Option.bind_eq_some_iff.1 hstanding
  refine ⟨c, List.mem_of_getElem? hget, ?_, hc⟩
  rw [cursor?, hi, Option.bind_some, hget]

/-- **A value is that of the row, or the cursor fails to read it.** -/
theorem MergedRows.value_of_row? {m : MergedRows} {row : Row} (h : m.row? = some row)
    (column : Nat) : m.value column = rowValue row column ∨ ∃ c ∈ m.cursors, ∃ f,
      c.value column = .error f ∧ m.value column = .error (Cursor.fault f) := by
  cases m with
  | held rest current cursors =>
      cases current with
      | none => cases h
      | some r =>
          cases h
          exact .inl rfl
  | chained cursors i =>
      obtain ⟨p, hp, rfl⟩ := Option.map_eq_some_iff.1 h
      obtain ⟨c, hget, hc⟩ := Option.bind_eq_some_iff.1 hp
      have hvalue : (chained cursors i).value column = c.cell column := by
        simp only [value, hget]
      rw [hvalue]
      exact (c.cell_of_standing? hc column).imp_right fun hf => ⟨c, List.mem_of_getElem? hget, hf⟩
  | single c =>
      have hc : c.standing? = some ⟨c.labels, row⟩ := by
        rw [Cursor.standing?, show c.current = some row from h, Option.map_some]
      exact (c.cell_of_standing? hc column).imp_right fun hf => ⟨c, List.mem_singleton.2 rfl, hf⟩
  | ordered q =>
      obtain ⟨p, hp, rfl⟩ := Option.map_eq_some_iff.1 h
      obtain ⟨c, hmem, hcursor, hc⟩ := CursorQueue.exists_cursor?_eq hp
      have hvalue : (ordered q).value column = c.cell column := by
        rw [value, CursorQueue.value, hcursor]
        rfl
      rw [hvalue]
      exact (c.cell_of_standing? hc column).imp_right fun hf => ⟨c, hmem, hf⟩
  | grouped s =>
      refine .inl ?_
      have hcurrent : s.current = some row := h
      rw [value, GroupStream.value, hcurrent]

/-! ### Groups -/

namespace Group

/-- A row is that of the group of some rows, which have one key. -/
structure Folds (groupColumns : List Nat) (columns : List AggregateColumn)
    (part : List PhysicalRow) (row : Row) : Prop where
  ne_nil : part ≠ []
  folded : ∃ key, (∀ p ∈ part, groupKey groupColumns p.read = .ok key) ∧
    (ofRun columns key (part.map (·.read)) >>= finish columns) = .ok row

end Group

namespace GroupStream

open ShardedSql.Group (Folds)

variable {s : GroupStream} {g g' : Group} {row : Row} {key : List Value} {p : PhysicalRow}
  {log : List PhysicalCall}

/-- The rows that belong to no group yet: the one that the queue stands on, and those that it has
not come to. -/
def unread (s : GroupStream) : List PhysicalRow :=
  if s.pending then s.queue.standing?.toList ++ s.queue.unread else []

/-- A stream of groups that has come to its end read all cursors to theirs. -/
def Lined (s : GroupStream) (log : List PhysicalCall) : Prop :=
  if s.pending then s.queue.Lined s.queue.current.toList log ∧ s.queue.standing?.isSome
  else Exhausted s.queue.cursors.length log

theorem keyedRow_of_ok (hp : s.queue.standing? = some p) (h : s.keyedRow = .ok (key, row)) :
    row = p.read ∧ groupKey s.groupColumns p.read = .ok key := by
  obtain ⟨c, -, hcursor, hc⟩ := CursorQueue.exists_cursor?_eq hp
  obtain ⟨r, hr, h⟩ := Outcome.bind_eq_ok.1 h
  obtain ⟨k, hk, h⟩ := Outcome.bind_eq_ok.1 h
  cases h
  have hrow : c.row = .ok row := by
    rw [CursorQueue.row, hcursor] at hr
    exact hr
  cases Cursor.row_of_ok hc hrow
  exact ⟨rfl, hk⟩

/-- The row behind is there when moving on comes to it, whether or not it is taken in. -/
theorem lined_moved {s s' : GroupStream} {q : CursorQueue}
    (h : s.queue.Lined s.queue.current.toList log) (hmoved : s.queue.next = (.ok true, q))
    (hs' : s' = { s with queue := q, pending := true }) (calls : List PhysicalCall) :
    ∃ p, s'.queue.standing? = some p ∧ s'.unread = p :: s'.queue.unread ∧
      s.queue.unread.Perm (p :: s'.queue.unread) ∧
      s'.queue.Lined s'.queue.current.toList (log ++ s.queue.nextCalls) ∧
      s'.Lined (log ++ (s.queue.nextCalls ++ calls)) := by
  have hnext := h.next
  rw [hmoved] at hnext
  obtain ⟨p, hp, hperm, hlined⟩ := hnext
  subst hs'
  refine ⟨p, hp, ?_, hperm, hlined, ?_⟩
  · rw [unread, if_pos rfl, hp]
    rfl
  · rw [← List.append_assoc, Lined, if_pos rfl]
    exact ⟨hlined.append calls, by rw [hp]; rfl⟩

/-- A group takes rows in that have its key and are still to come. -/
theorem Gathers.folds {n : Nat} {after : GroupStream} {x : Outcome Group}
    {calls : List PhysicalCall} (h : Gathers n s g row x after calls)
    (hlined : s.queue.Lined s.queue.current.toList log) (hok : x = .ok g') :
    ∃ part : List PhysicalRow,
      (∀ p ∈ part, groupKey s.groupColumns p.read = .ok g.key) ∧
      (row :: part.map (·.read)).foldlM (fun g r => g.mergeInto s.columns r) g = .ok g' ∧
      s.queue.unread.Perm (part ++ after.unread) ∧ after.Lined (log ++ calls) ∧
      after.groupColumns = s.groupColumns ∧ after.columns = s.columns := by
  have hnone (columns : List Nat) (key : List Value) :
      ∀ p ∈ ([] : List PhysicalRow), groupKey columns p.read = .ok key :=
    fun p hp => absurd hp List.not_mem_nil
  have hone {s : GroupStream} {g g₁ : Group} {row : Row}
      (hmerge : g.mergeInto s.columns row = .ok g₁) :
      [row].foldlM (fun g r => g.mergeInto s.columns r) g = .ok g₁ := by
    rw [List.foldlM_cons, hmerge]
    rfl
  induction h generalizing log with
  | refused _ => cases hok
  | lost _ _ => cases hok
  | unreadable _ _ _ _ => cases hok
  | ended hmerge hmoved =>
      cases hok
      have hnext := hlined.next
      have hlength := (CursorQueue.traced_of_next hmoved).replays.length_eq
      rw [hmoved] at hnext
      obtain ⟨hnil, hended⟩ := hnext
      rw [← hlength] at hended
      exact ⟨[], hnone _ _, hone hmerge, by rw [hnil]; exact .refl _, hended, rfl, rfl⟩
  | stopped hmerge hmoved hs' _ =>
      cases hok
      obtain ⟨p, -, hunread, hperm, -, hlined'⟩ := lined_moved hlined hmoved hs' _
      subst hs'
      exact ⟨[], hnone _ _, hone hmerge, by rw [hunread]; exact hperm, hlined', rfl, rfl⟩
  | @more n s s' after g g₁ row _ _ _ _ hmerge hmoved hs' hread _ ih =>
      obtain ⟨p, hp, -, hperm, hqueue, -⟩ := lined_moved hlined hmoved hs' []
      obtain ⟨rfl, hkey⟩ := keyedRow_of_ok hp hread
      obtain ⟨part, hkeys, hfold, hperm', hlined', hcolumns⟩ :=
        ih (hqueue.append s'.queue.rowCalls) hok
      subst hs'
      refine ⟨p :: part, ?_, ?_, hperm.trans (hperm'.cons p), ?_, hcolumns⟩
      · rw [← (Group.mergeInto_spec hmerge).1]
        exact List.forall_mem_cons.2 ⟨hkey, hkeys⟩
      · rw [List.foldlM_cons, hmerge]
        exact hfold
      · rwa [List.append_assoc, List.append_assoc] at hlined'

/-- **The next group is made of rows that are still to come.**  There is none when no row is, and
then every cursor said so. -/
theorem Lined.next (h : s.Lined log) :
    match s.next with
    | (.error _, _) => True
    | (.ok false, s') => s.unread = [] ∧ Exhausted s'.queue.cursors.length (log ++ s.nextCalls)
    | (.ok true, s') => ∃ part row, s'.current = some row ∧
        Folds s.groupColumns s.columns part row ∧ s.unread.Perm (part ++ s'.unread) ∧
        s'.Lined (log ++ s.nextCalls) ∧ s'.groupColumns = s.groupColumns ∧
        s'.columns = s.columns := by
  unfold GroupStream.next nextCalls
  by_cases hpending : s.pending = true
  · rw [Lined, if_pos hpending] at h
    obtain ⟨hlined, hstands⟩ := h
    obtain ⟨p, hp⟩ := Option.isSome_iff_exists.1 hstands
    have hunread : s.unread = p :: s.queue.unread := by
      rw [unread, if_pos hpending, hp]
      rfl
    simp only [if_pos hpending]
    cases hkeyed : s.keyedRow with
    | error f => trivial
    | ok kr =>
        obtain ⟨key, row⟩ := kr
        obtain ⟨rfl, hkey⟩ := keyedRow_of_ok hp hkeyed
        have hgather (g : Group)
            (hok : (gather s.queue.size s (Group.start s.columns key p.read) p.read).1 = .ok g) :=
          (gathers_gather s.queue.size s (Group.start s.columns key p.read) p.read).folds
            (hlined.append s.queue.rowCalls) hok
        simp only
        generalize gather s.queue.size s (Group.start s.columns key p.read) p.read = gathered
          at hgather ⊢
        obtain ⟨x, s'⟩ := gathered
        cases x with
        | error f => trivial
        | ok g =>
            obtain ⟨part, hkeys, hfold, hperm, hlined', hgroupColumns, hcolumns⟩ := hgather g rfl
            simp only at hcolumns ⊢
            cases hfinish : g.finish s'.columns with
            | error f => trivial
            | ok row =>
                refine ⟨p :: part, row, rfl, ⟨List.cons_ne_nil _ _, key, ?_, ?_⟩, ?_, ?_,
                  hgroupColumns, hcolumns⟩
                · exact List.forall_mem_cons.2 ⟨hkey, hkeys⟩
                · rw [hcolumns] at hfinish
                  exact Outcome.bind_eq_ok.2 ⟨g, hfold, hfinish⟩
                · rw [hunread]
                  exact hperm.cons p
                · rwa [List.append_assoc] at hlined'
  · rw [Lined, if_neg hpending] at h
    rw [if_neg hpending, if_neg hpending]
    exact ⟨by rw [unread, if_neg hpending], h.append []⟩

/-- **At the start all rows belong to no group yet.** -/
theorem lined_start {keys : List SortKey} {groupColumns : List Nat}
    {columns : List AggregateColumn} {cursors : List Cursor}
    (hok : (start keys groupColumns columns cursors).1 = .ok ()) :
    (start keys groupColumns columns cursors).2.Lined (startCalls keys cursors) ∧
      (start keys groupColumns columns cursors).2.unread.Perm (cursors.flatMap Cursor.unread) ∧
      (start keys groupColumns columns cursors).2.groupColumns = groupColumns ∧
      (start keys groupColumns columns cursors).2.columns = columns := by
  unfold start at hok ⊢
  unfold startCalls
  have hqueue (hstart : (CursorQueue.start keys cursors).1 = .ok ()) :=
    CursorQueue.lined_start hstart
  generalize CursorQueue.start keys cursors = started at hqueue hok ⊢
  obtain ⟨x, q⟩ := started
  cases x with
  | error f => cases hok
  | ok _ =>
      obtain ⟨hlined, hperm, hcurrent⟩ := hqueue rfl
      have hidle : q.Lined q.current.toList (CursorQueue.startCalls keys cursors) := by
        rw [hcurrent]
        exact hlined
      have hnext := hidle.next
      have hlength := q.traced_next.replays.length_eq
      simp only at hok ⊢
      generalize q.next = moved at hnext hlength hok ⊢
      obtain ⟨y, q'⟩ := moved
      cases y with
      | error f => cases hok
      | ok pending =>
          cases pending with
          | false =>
              obtain ⟨hnil, hended⟩ := hnext
              rw [← hlength] at hended
              rw [hnil] at hperm
              exact ⟨hended, hperm, rfl, rfl⟩
          | true =>
              obtain ⟨p, hp, hperm', hlined'⟩ := hnext
              refine ⟨⟨hlined', by rw [hp]; rfl⟩, ?_, rfl, rfl⟩
              rw [unread, if_pos rfl, hp]
              exact hperm'.symm.trans hperm

end GroupStream

/-! ### All rows at once -/

/-- A computation over all rows that are left of a cursor is one over the list of them, and the
cursor says that they are all. -/
theorem Cursor.foldUpTo_of_ok {σ : Type} {step : σ → Row → Outcome σ} {i n : Nat} {s s' : σ}
    {c : Cursor} (hn : c.rest.length < n) (hok : (foldUpTo step n s c).1 = .ok s') :
    (c.unread.map (·.read)).foldlM step s = .ok s' ∧
      PhysicalCall.next i (.ok false) ∈ foldUpToCalls i step n s c := by
  induction n generalizing s c with
  | zero => exact absurd hn (Nat.not_lt_zero _)
  | succ n ih =>
      rw [foldUpTo] at hok
      rw [foldUpToCalls]
      have hfalse := of_advance_false (c := c)
      have htrue := exists_of_advance_true (c := c)
      rw [nextCall]
      generalize c.advance = moved at hok hfalse htrue ⊢
      obtain ⟨x, d⟩ := moved
      cases x with
      | error f => cases hok
      | ok found =>
          cases found with
          | false =>
              cases hok
              obtain ⟨hnext, hnil, -⟩ := hfalse rfl
              rw [hnil, hnext]
              exact ⟨rfl, List.mem_append_left _ (List.mem_singleton.2 rfl)⟩
          | true =>
              obtain ⟨p, hunread, hp⟩ := htrue rfl
              have hlength := congrArg List.length hunread
              simp only [unread, List.length_map, List.length_cons] at hlength
              simp only at hok ⊢
              cases hrow : d.row >>= step s with
              | error f => simp [hrow] at hok
              | ok s₁ =>
                  rw [hrow] at hok
                  obtain ⟨row, hread, hstep⟩ := Outcome.bind_eq_ok.1 hrow
                  cases row_of_ok hp hread
                  obtain ⟨hfold, hcall⟩ := ih (by omega) hok
                  rw [hunread, List.map_cons, List.foldlM_cons, hstep]
                  exact ⟨hfold, List.mem_append_right _ (List.mem_append_right _ hcall)⟩

namespace Group

variable {groupColumns : List Nat} {columns : List AggregateColumn}

/-- All rows of some cursors are taken in, and each cursor says that they are all. -/
theorem collect_of_ok {gs gs' : List Group} {cursors : List Cursor} {i : Nat}
    (hok : (collect groupColumns columns gs cursors).1 = .ok gs') :
    ((cursors.flatMap Cursor.unread).map (·.read)).foldlM (addRow groupColumns columns) gs =
        .ok gs' ∧
      ∀ j < cursors.length, PhysicalCall.next (i + j) (.ok false) ∈
        collectCalls groupColumns columns i gs cursors := by
  induction cursors generalizing gs i with
  | nil => exact ⟨hok, fun j hj => absurd hj (Nat.not_lt_zero j)⟩
  | cons c cursors ih =>
      rw [collect] at hok
      rw [collectCalls]
      have hfold (gs₁ : List Group)
          (hread : (c.foldRows (addRow groupColumns columns) gs).1 = .ok gs₁) :=
        Cursor.foldUpTo_of_ok (i := i) (Nat.lt_succ_self c.rest.length) hread
      generalize c.foldRows (addRow groupColumns columns) gs = folded at hok hfold ⊢
      obtain ⟨x, d⟩ := folded
      cases x with
      | error f => cases hok
      | ok gs₁ =>
          obtain ⟨hrows, hcall⟩ := hfold gs₁ rfl
          obtain ⟨hrest, hcalls⟩ := ih (i := i + 1) hok
          refine ⟨?_, fun j hj => ?_⟩
          · rw [List.flatMap_cons, List.map_append, List.foldlM_append, hrows]
            exact hrest
          · cases j with
            | zero => exact List.mem_append_left _ hcall
            | succ j =>
                have hrestCall := hcalls j (Nat.lt_of_succ_lt_succ hj)
                rw [Nat.add_right_comm] at hrestCall
                exact List.mem_append_right _ hrestCall

/-- **Each group that is made at once is that of the rows with one key**, and every row is in
one. -/
theorem ofCursors_folds {keys : List SortKey} {cursors : List Cursor} {out : List Row}
    (hok : (ofCursors groupColumns keys columns cursors).1 = .ok out) :
    (∃ parts : List (List PhysicalRow), parts.flatten.Perm (cursors.flatMap Cursor.unread) ∧
        List.Forall₂ (Folds groupColumns columns) parts out) ∧
      Exhausted cursors.length (ofCursorsCalls groupColumns columns cursors) := by
  have hofCursors : (ofCursors groupColumns keys columns cursors).1 =
      (collect groupColumns columns [] cursors).1 >>= rowsOf columns keys := rfl
  rw [hofCursors] at hok
  obtain ⟨gs, hcollect, hrows⟩ := Outcome.bind_eq_ok.1 hok
  obtain ⟨hfold, hended⟩ := collect_of_ok (i := 0) hcollect
  simp only [Nat.zero_add] at hended
  refine ⟨?_, hended⟩
  generalize cursors.flatMap Cursor.unread = all at hfold ⊢
  obtain ⟨hwide, hgs⟩ := foldlM_addRow_eq_ok.1 hfold
  obtain ⟨keyed, hkeyed, hsorted⟩ := rowsOf_eq_ok.1 hrows
  obtain ⟨made, hmade, -, rfl⟩ := mapM_finishKeyed_eq_ok.1 ⟨gs, hgs, hkeyed⟩
  have hperm : made.Perm out := by
    rw [← hsorted]
    refine ((sortKeyed_perm keys _).trans (.of_eq ?_)).symm
    rw [List.map_map]
    exact List.map_id made
  -- the rows with a key, for each key, are the parts
  have hparts : List.Forall₂ (Folds groupColumns columns)
      ((keysOf groupColumns (all.map (·.read))).map fun key =>
        all.filter fun p => keyOf groupColumns p.read = key) made := by
    rw [List.forall₂_map_left_iff]
    have hkeys := (List.forall₂_and_left _ _).2
      ⟨fun key (hkey : key ∈ keysOf groupColumns (all.map (·.read))) => hkey,
        Outcome.mapM_eq_ok.1 hmade⟩
    refine hkeys.imp fun key row hrow => ?_
    have hread : (all.filter fun p => keyOf groupColumns p.read = key).map (·.read) =
        (all.map (·.read)).filter fun r => keyOf groupColumns r = key := by
      rw [List.filter_map]
      rfl
    refine ⟨fun hnil => filter_ne_nil hrow.1 ?_, key, ?_, ?_⟩
    · rw [← hread, hnil]
      rfl
    · intro p hp
      obtain ⟨hmem, hkey⟩ := List.mem_filter.1 hp
      exact groupKey_eq_ok.2 ⟨hwide _ (List.mem_map_of_mem hmem), (of_decide_eq_true hkey).symm⟩
    · rw [hread]
      exact hrow.2
  have hcomp : Relation.Comp (List.Forall₂ (Folds groupColumns columns)) List.Perm _ out :=
    ⟨made, hparts, hperm⟩
  rw [List.forall₂_comp_perm_eq_perm_comp_forall₂] at hcomp
  obtain ⟨parts, hpartsPerm, hfolds⟩ := hcomp
  refine ⟨parts, hpartsPerm.symm.flatten.trans ?_, hfolds⟩
  have hall := Lists.flatMap_filter_perm (fun p => keyOf groupColumns p.read) all
  rwa [List.flatMap_def, ← Function.comp_def (keyOf groupColumns) PhysicalRow.read,
    ← List.map_map] at hall

end Group

/-! ### Chained cursors -/

namespace MergedRows

/-- The rows that have not come yet of the cursors from the one with a number on. -/
def unreadFrom (cursors : List Cursor) (i : Nat) : List PhysicalRow :=
  (cursors.drop i).flatMap Cursor.unread

theorem unreadFrom_eq_append {cursors : List Cursor} {i : Nat} {c : Cursor}
    (h : cursors[i]? = some c) :
    unreadFrom cursors i = c.unread ++ unreadFrom cursors (i + 1) := by
  obtain ⟨hlt, hc⟩ := List.getElem?_eq_some_iff.1 h
  rw [unreadFrom, List.drop_eq_getElem_cons hlt, hc, List.flatMap_cons, unreadFrom]

theorem unreadFrom_set (cursors : List Cursor) (i : Nat) (c : Cursor) :
    unreadFrom (cursors.set i c) (i + 1) = unreadFrom cursors (i + 1) := by
  rw [unreadFrom, List.drop_set_of_lt (Nat.lt_succ_self i), unreadFrom]

/-- Cursors are chained: those before the one that is read said that they have no more rows. -/
def Chained (cursors : List Cursor) (i : Nat) (log : List PhysicalCall) : Prop :=
  ∀ j < i, j < cursors.length → PhysicalCall.next j (.ok false) ∈ log

/-- Behind the last cursor all have ended. -/
theorem Chained.ended {cursors : List Cursor} {i : Nat} {log : List PhysicalCall}
    (h : Chained cursors i log) (hi : cursors.length ≤ i) :
    unreadFrom cursors i = [] ∧ Exhausted cursors.length (log ++ []) := by
  refine ⟨by rw [unreadFrom, List.drop_eq_nil_of_le hi, List.flatMap_nil], fun j hj => ?_⟩
  exact List.mem_append_left [] (h j (Nat.lt_of_lt_of_le hj hi) hj)

/-- **Moving on in chained cursors comes to the first row that has not come yet.** -/
theorem chainNext_unread (n : Nat) {cursors : List Cursor} {i : Nat} {log : List PhysicalCall}
    (hn : cursors.length < n + i) (h : Chained cursors i log) :
    match chainNext n cursors i with
    | (.error _, _) => True
    | (.ok false, _) => unreadFrom cursors i = [] ∧
        Exhausted cursors.length (log ++ chainNextCalls n cursors i)
    | (.ok true, m) => ∃ p cursors' i', m = .chained cursors' i' ∧
        Cursor.standingAt? cursors' i' = some p ∧
        unreadFrom cursors i = p :: unreadFrom cursors' i' ∧
        Chained cursors' i' (log ++ chainNextCalls n cursors i) := by
  induction n generalizing cursors i log with
  | zero => exact h.ended (by omega)
  | succ n ih =>
      rw [chainNext, chainNextCalls]
      cases hget : cursors[i]? with
      | none => exact h.ended (List.getElem?_eq_none_iff.1 hget)
      | some c =>
          have hlt := (List.getElem?_eq_some_iff.1 hget).1
          have hfalse := Cursor.of_advance_false (c := c)
          have htrue := Cursor.exists_of_advance_true (c := c)
          rw [unreadFrom_eq_append hget]
          simp only [Cursor.nextCall]
          generalize c.advance = moved at hfalse htrue ⊢
          obtain ⟨x, d⟩ := moved
          cases x with
          | error f => trivial
          | ok found =>
              cases found with
              | true =>
                  obtain ⟨p, hunread, hp⟩ := htrue rfl
                  refine ⟨p, cursors.set i d, i, rfl, ?_, ?_, fun j hj hlen => ?_⟩
                  · exact (Cursor.standingAt?_set_self hlt d).trans hp
                  · rw [hunread, unreadFrom_eq_append (List.getElem?_set_self hlt), unreadFrom_set]
                    rfl
                  · rw [List.length_set] at hlen
                    exact List.mem_append_left _ (h j hj hlen)
              | false =>
                  -- the cursor is used up, so that the next one is read
                  obtain ⟨hnext, hnil, -⟩ := hfalse rfl
                  have hchained : Chained (cursors.set i d) (i + 1)
                      (log ++ [.next i (.ok false)]) := by
                    intro j hj hlen
                    rw [List.length_set] at hlen
                    rcases Nat.lt_succ_iff_lt_or_eq.1 hj with hj | rfl
                    · exact List.mem_append_left _ (h j hj hlen)
                    · exact List.mem_append_right _ (List.mem_singleton.2 rfl)
                  have hrest := ih (by rw [List.length_set]; omega) hchained
                  rw [unreadFrom_set, List.length_set] at hrest
                  simp only [List.append_assoc] at hrest
                  rw [hnil, hnext, List.nil_append]
                  exact hrest

end MergedRows

/-! ### The ways in which rows are merged -/

/-- The ways in which the rows of cursors are merged. -/
inductive Way where
  /-- The rows of each cursor after those of the ones before it. -/
  | chain
  /-- A single cursor is read as it is; several are chained. -/
  | plain
  /-- Rows in the order of some keys. -/
  | order (keys : List SortKey)
  /-- Groups that are made while the rows are read. -/
  | stream (keys : List SortKey) (groupColumns : List Nat) (columns : List AggregateColumn)
  /-- Groups that are made at once. -/
  | hold (keys : List SortKey) (groupColumns : List Nat) (columns : List AggregateColumn)

namespace Way

open MergedRows (Chained unreadFrom chainNext_unread)

variable {w : Way} {cursors after : List Cursor} {m : MergedRows} {log calls : List PhysicalCall}
  {left : List PhysicalRow} {rows : List Row} {x : Outcome Unit}

/-- The merged rows of some cursors. -/
def make (w : Way) (cursors : List Cursor) : Except MergeFailure MergedRows :=
  match w, cursors with
  | chain, cursors => .ok (.chained cursors 0)
  | plain, [c] => .ok (.single c)
  | plain, cursors => .ok (.chained cursors 0)
  | order keys, cursors => MergedRows.order keys cursors
  | stream keys groupColumns columns, cursors =>
      MergedRows.streamGroups keys groupColumns columns cursors
  | hold keys groupColumns columns, cursors =>
      MergedRows.holdGroups keys groupColumns columns cursors

/-- The calls of making merged rows. -/
def makeCalls (w : Way) (cursors : List Cursor) : List PhysicalCall :=
  match w with
  | chain => []
  | plain => []
  | order keys => CursorQueue.startCalls keys cursors
  | stream keys _ _ => GroupStream.startCalls keys cursors
  | hold _ groupColumns columns => Group.ofCursorsCalls groupColumns columns cursors

/-- Rows of cursors come to light in a row: one of them as it is, or those of a group folded. -/
def Surfaces (w : Way) (part : List PhysicalRow) (row : Row) : Prop :=
  match w with
  | stream _ groupColumns columns => Group.Folds groupColumns columns part row
  | hold _ groupColumns columns => Group.Folds groupColumns columns part row
  | _ => ∃ p, part = [p] ∧ p.values = row

theorem Surfaces.ne_nil {part : List PhysicalRow} {row : Row} (h : w.Surfaces part row) :
    part ≠ [] := by
  cases w with
  | stream keys groupColumns columns => exact h.ne_nil
  | hold keys groupColumns columns => exact h.ne_nil
  | _ =>
      obtain ⟨p, rfl, -⟩ := h
      exact List.cons_ne_nil p []

/-- Making merged rows passes no failure over. -/
theorem traced_make (w : Way) (cursors : List Cursor) :
    match w.make cursors with
    | .error e => Traced cursors (w.makeCalls cursors) e.cursors (.error e.fault : Outcome Unit)
    | .ok m => Traced cursors (w.makeCalls cursors) m.cursors (.ok () : Outcome Unit) := by
  cases w with
  | chain => exact .pure _
  | plain =>
      match cursors with
      | [] => exact .pure _
      | [c] => exact .pure _
      | c :: d :: rest => exact .pure _
  | order keys =>
      have hstart := CursorQueue.traced_start keys cursors
      rw [make, MergedRows.order, makeCalls]
      generalize CursorQueue.start keys cursors = p at hstart ⊢
      obtain ⟨x, q⟩ := p
      cases x <;> exact hstart
  | stream keys groupColumns columns =>
      have hstart := GroupStream.traced_start keys groupColumns columns cursors
      rw [make, MergedRows.streamGroups, makeCalls]
      generalize GroupStream.start keys groupColumns columns cursors = p at hstart ⊢
      obtain ⟨x, s⟩ := p
      cases x <;> exact hstart
  | hold keys groupColumns columns =>
      have hgroups := Group.traced_ofCursors groupColumns keys columns cursors
      rw [make, MergedRows.holdGroups, makeCalls]
      generalize Group.ofCursors groupColumns keys columns cursors = p at hgroups ⊢
      obtain ⟨x, after⟩ := p
      cases x with
      | error f => exact hgroups.fail
      | ok rows => exact hgroups.succeed _

/-- What merged rows have before them, after some calls none of which failed. -/
inductive Stands : Way → MergedRows → List PhysicalCall → List PhysicalRow → Prop
  | chained {w : Way} {cursors : List Cursor} {i : Nat} {log : List PhysicalCall}
      (hw : w = chain ∨ w = plain) (h : Chained cursors i log) :
      Stands w (.chained cursors i) log (unreadFrom cursors i)
  | single (c : Cursor) (log : List PhysicalCall) : Stands plain (.single c) log c.unread
  | ordered (keys : List SortKey) {q : CursorQueue} {log : List PhysicalCall}
      (h : q.Lined q.current.toList log) : Stands (order keys) (.ordered q) log q.unread
  | grouped (keys : List SortKey) {s : GroupStream} {log : List PhysicalCall} (h : s.Lined log) :
      Stands (stream keys s.groupColumns s.columns) (.grouped s) log s.unread
  | held (keys : List SortKey) {groupColumns : List Nat} {columns : List AggregateColumn}
      {parts : List (List PhysicalRow)} {rows : List Row} (current : Option Row)
      {cursors : List Cursor} {log : List PhysicalCall}
      (hfolds : List.Forall₂ (Group.Folds groupColumns columns) parts rows)
      (hended : Exhausted cursors.length log) :
      Stands (hold keys groupColumns columns) (.held rows current cursors) log parts.flatten

/-- Merged rows have all rows before them when they are made. -/
theorem stands_make (w : Way) (cursors : List Cursor) :
    match w.make cursors with
    | .error _ => True
    | .ok m => ∃ left, w.Stands m (w.makeCalls cursors) left ∧
        left.Perm (cursors.flatMap Cursor.unread) := by
  have hchained (hw : w = chain ∨ w = plain) :
      w.Stands (.chained cursors 0) [] (cursors.flatMap Cursor.unread) :=
    .chained hw fun j hj _ => absurd hj (Nat.not_lt_zero j)
  cases w with
  | chain => exact ⟨_, hchained (.inl rfl), .refl _⟩
  | plain =>
      match cursors with
      | [] => exact ⟨_, hchained (.inr rfl), .refl _⟩
      | [c] => exact ⟨_, .single c [], by rw [List.flatMap_singleton]⟩
      | c :: d :: rest => exact ⟨_, hchained (.inr rfl), .refl _⟩
  | order keys =>
      have hstart (hok : (CursorQueue.start keys cursors).1 = .ok ()) :=
        CursorQueue.lined_start hok
      rw [make, MergedRows.order, makeCalls]
      generalize CursorQueue.start keys cursors = p at hstart ⊢
      obtain ⟨x, q⟩ := p
      cases x with
      | error f => trivial
      | ok _ =>
          obtain ⟨hlined, hperm, hcurrent⟩ := hstart rfl
          refine ⟨q.unread, .ordered keys ?_, hperm⟩
          rw [hcurrent]
          exact hlined
  | stream keys groupColumns columns =>
      have hstart (hok : (GroupStream.start keys groupColumns columns cursors).1 = .ok ()) :=
        GroupStream.lined_start hok
      rw [make, MergedRows.streamGroups, makeCalls]
      generalize GroupStream.start keys groupColumns columns cursors = p at hstart ⊢
      obtain ⟨x, s⟩ := p
      cases x with
      | error f => trivial
      | ok _ =>
          obtain ⟨hlined, hperm, hgroupColumns, hcolumns⟩ := hstart rfl
          simp only at hgroupColumns hcolumns
          subst hgroupColumns hcolumns
          exact ⟨s.unread, .grouped keys hlined, hperm⟩
  | hold keys groupColumns columns =>
      have hlength := (Group.traced_ofCursors groupColumns keys columns cursors).replays.length_eq
      have hgroups (rows : List Row)
          (hok : (Group.ofCursors groupColumns keys columns cursors).1 = .ok rows) :=
        Group.ofCursors_folds hok
      rw [make, MergedRows.holdGroups, makeCalls]
      generalize Group.ofCursors groupColumns keys columns cursors = p at hlength hgroups ⊢
      obtain ⟨x, after⟩ := p
      cases x with
      | error f => trivial
      | ok rows =>
          obtain ⟨⟨parts, hperm, hfolds⟩, hended⟩ := hgroups rows rfl
          rw [← hlength] at hended
          exact ⟨parts.flatten, .held keys none hfolds hended, hperm⟩

/-- **Moving on brings rows to light that are still to come.**  It ends when there are none, and
then every cursor said so. -/
theorem Stands.next (h : w.Stands m log left) :
    match m.next with
    | (.error _, _) => True
    | (.ok false, _) => left = [] ∧ Exhausted m.cursors.length (log ++ m.nextCalls)
    | (.ok true, m') => ∃ part row left', m'.row? = some row ∧ w.Surfaces part row ∧
        left.Perm (part ++ left') ∧ w.Stands m' (log ++ m.nextCalls) left' := by
  cases h with
  | @chained _ cs i _ hw h =>
      have hnext := chainNext_unread (cs.length + 1) (by omega) h
      rw [MergedRows.next, MergedRows.nextCalls]
      generalize MergedRows.chainNext (cs.length + 1) cs i = p at hnext ⊢
      obtain ⟨x, m'⟩ := p
      cases x with
      | error f => trivial
      | ok found =>
          cases found with
          | false => exact hnext
          | true =>
              obtain ⟨p, cursors', i', rfl, hp, hunread, hchained⟩ := hnext
              refine ⟨[p], p.values, _, ?_, ?_, .of_eq hunread, .chained hw hchained⟩
              · rw [MergedRows.row?, hp, Option.map_some]
              · rcases hw with rfl | rfl <;> exact ⟨p, rfl, rfl⟩
  | single c =>
      have hfalse := Cursor.of_advance_false (c := c)
      have htrue := Cursor.exists_of_advance_true (c := c)
      rw [MergedRows.next, MergedRows.nextCalls]
      simp only [Cursor.nextCall]
      generalize c.advance = moved at hfalse htrue ⊢
      obtain ⟨x, d⟩ := moved
      cases x with
      | error f => trivial
      | ok found =>
          cases found with
          | false =>
              obtain ⟨hnext, hnil, -⟩ := hfalse rfl
              refine ⟨hnil, fun i hi => ?_⟩
              rw [hnext, Nat.lt_one_iff.1 hi]
              exact List.mem_append_right _ (List.mem_singleton.2 rfl)
          | true =>
              obtain ⟨p, hunread, hp⟩ := htrue rfl
              obtain ⟨row, hrow, rfl⟩ := Option.map_eq_some_iff.1 hp
              exact ⟨[⟨d.labels, row⟩], row, d.unread, hrow, ⟨_, rfl, rfl⟩, .of_eq hunread,
                .single d _⟩
  | @ordered keys q log h =>
      have hnext := h.next
      rw [MergedRows.next, MergedRows.nextCalls]
      generalize q.next = moved at hnext ⊢
      obtain ⟨x, q'⟩ := moved
      cases x with
      | error f => trivial
      | ok found =>
          cases found with
          | false => exact hnext
          | true =>
              obtain ⟨p, hp, hperm, hlined⟩ := hnext
              refine ⟨[p], p.values, q'.unread, ?_, ⟨p, rfl, rfl⟩, hperm, .ordered keys hlined⟩
              rw [MergedRows.row?, hp, Option.map_some]
  | @grouped keys s log h =>
      have hnext := h.next
      have hlength := s.traced_next.replays.length_eq
      rw [MergedRows.next, MergedRows.nextCalls]
      generalize s.next = moved at hnext hlength ⊢
      obtain ⟨x, s'⟩ := moved
      cases x with
      | error f => trivial
      | ok found =>
          cases found with
          | false =>
              obtain ⟨hnil, hended⟩ := hnext
              rw [hlength] at hended
              exact ⟨hnil, hended⟩
          | true =>
              obtain ⟨part, row, hrow, hfolds, hperm, hlined, hgroupColumns, hcolumns⟩ := hnext
              refine ⟨part, row, s'.unread, hrow, hfolds, hperm, ?_⟩
              rw [← hgroupColumns, ← hcolumns]
              exact .grouped keys hlined
  | @held keys groupColumns columns parts rows current cursors log hfolds hended =>
      cases hfolds with
      | nil => exact ⟨rfl, hended.append []⟩
      | cons hfold hfolds =>
          exact ⟨_, _, _, rfl, hfold, .refl _, .held keys _ hfolds (hended.append [])⟩

end Way

/-! ### Reading to the end -/

/-- Merged rows are read until there is no row or moving on fails: the rows, how it ends, the calls
that are made, and the cursors then. -/
inductive Drains : MergedRows → List Row → Outcome Unit → List PhysicalCall → List Cursor → Prop
  | done {m : MergedRows} (hnext : m.next.1 = .ok false) :
      Drains m [] (.ok ()) m.nextCalls m.next.2.cursors
  | failed {m : MergedRows} {f : Fault} (hnext : m.next.1 = .error f) :
      Drains m [] (.error f) m.nextCalls m.next.2.cursors
  | row {m : MergedRows} {row : Row} {rows : List Row} {x : Outcome Unit}
      {calls : List PhysicalCall} {after : List Cursor} (hnext : m.next.1 = .ok true)
      (hrow : m.next.2.row? = some row) (hrest : Drains m.next.2 rows x calls after) :
      Drains m (row :: rows) x (m.nextCalls ++ calls) after

/-- Reading merged rows passes no failure over. -/
theorem Drains.traced {m : MergedRows} {rows : List Row} {x : Outcome Unit}
    {calls : List PhysicalCall} {after : List Cursor} (h : Drains m rows x calls after) :
    Traced m.cursors calls after x := by
  induction h with
  | @done m hnext =>
      have hmoved := m.traced_next
      rw [hnext] at hmoved
      exact hmoved.succeed _
  | @failed m f hnext =>
      have hmoved := m.traced_next
      rw [hnext] at hmoved
      exact hmoved.fail
  | @row m row rows x calls after hnext _ _ ih =>
      have hmoved := m.traced_next
      rw [hnext] at hmoved
      exact hmoved.bind ih

namespace Way

variable {w : Way} {cursors after : List Cursor} {m : MergedRows} {log calls : List PhysicalCall}
  {left : List PhysicalRow} {rows : List Row} {x : Outcome Unit}

/-- **Reading without an error brings all rows to light that were still to come.** -/
theorem Stands.drains (h : w.Stands m log left) (hdrains : Drains m rows x calls after)
    (hok : x = .ok ()) : (∃ parts : List (List PhysicalRow), parts.flatten.Perm left ∧
      List.Forall₂ w.Surfaces parts rows) ∧ Exhausted m.cursors.length (log ++ calls) := by
  induction hdrains generalizing log left with
  | @done m hnext =>
      have hstep := h.next
      have hpair : m.next = (.ok false, m.next.2) := Prod.ext hnext rfl
      rw [hpair] at hstep
      obtain ⟨rfl, hended⟩ := hstep
      exact ⟨⟨[], .refl _, .nil⟩, hended⟩
  | failed hnext => cases hok
  | @row m row rows x calls after hnext hrow _ ih =>
      have hstep := h.next
      have hlength := m.traced_next.replays.length_eq
      have hpair : m.next = (.ok true, m.next.2) := Prod.ext hnext rfl
      rw [hpair] at hstep
      obtain ⟨part, row', left', hrow', hsurfaces, hperm, hstands⟩ := hstep
      cases hrow.symm.trans hrow'
      obtain ⟨⟨parts, hparts, hforall⟩, hended⟩ := ih hstands hok
      rw [hlength, List.append_assoc] at hended
      refine ⟨⟨part :: parts, ?_, .cons hsurfaces hforall⟩, hended⟩
      rw [List.flatten_cons]
      exact (hparts.append_left part).trans hperm.symm

/-- Reading comes to an end, since each row uses one up at least. -/
theorem Stands.exists_drains (h : w.Stands m log left) :
    ∃ rows x calls after, Drains m rows x calls after := by
  generalize hn : left.length = n
  induction n using Nat.strongRecOn generalizing m log left with
  | ind n ih =>
      have hstep := h.next
      cases hnext : m.next.1 with
      | error f => exact ⟨_, _, _, _, .failed hnext⟩
      | ok found =>
          cases found with
          | false => exact ⟨_, _, _, _, .done hnext⟩
          | true =>
              have hpair : m.next = (.ok true, m.next.2) := Prod.ext hnext rfl
              rw [hpair] at hstep
              obtain ⟨part, row, left', hrow, hsurfaces, hperm, hstands⟩ := hstep
              have hpart := List.length_pos_of_ne_nil hsurfaces.ne_nil
              have hlength := hperm.length_eq
              rw [List.length_append] at hlength
              obtain ⟨rows, x, calls, after, hrest⟩ := ih _ (by omega) hstands rfl
              exact ⟨_, _, _, _, .row hnext hrow hrest⟩

/-- Merged rows are made and then read to the end, unless making them fails. -/
inductive Reads (w : Way) (cursors : List Cursor) :
    List Row → Outcome Unit → List PhysicalCall → List Cursor → Prop
  | failed {e : MergeFailure} (hmake : w.make cursors = .error e) :
      Reads w cursors [] (.error e.fault) (w.makeCalls cursors) e.cursors
  | drained {m : MergedRows} {rows : List Row} {x : Outcome Unit} {calls : List PhysicalCall}
      {after : List Cursor} (hmake : w.make cursors = .ok m)
      (hdrains : Drains m rows x calls after) :
      Reads w cursors rows x (w.makeCalls cursors ++ calls) after

/-- **Reading comes to an end**, whichever calls fail. -/
theorem exists_reads (w : Way) (cursors : List Cursor) :
    ∃ rows x calls after, w.Reads cursors rows x calls after := by
  have hstands := w.stands_make cursors
  cases hmake : w.make cursors with
  | error e => exact ⟨_, _, _, _, .failed hmake⟩
  | ok m =>
      rw [hmake] at hstands
      obtain ⟨left, hstands, -⟩ := hstands
      obtain ⟨rows, x, calls, after, hdrains⟩ := hstands.exists_drains
      exact ⟨_, _, _, _, .drained hmake hdrains⟩

theorem Reads.traced (h : w.Reads cursors rows x calls after) : Traced cursors calls after x := by
  have htraced := w.traced_make cursors
  cases h with
  | failed hmake =>
      rw [hmake] at htraced
      exact htraced
  | drained hmake hdrains =>
      rw [hmake] at htraced
      exact htraced.bind hdrains.traced

/-- The rows of every statement are merged in one of the ways, unless its columns are not found. -/
theorem ofCursors_eq_make (s : Select) (labels : List String) (cursors : List Cursor) :
    (∃ f, MergedRows.ofCursors s labels cursors = .error ⟨f, cursors⟩) ∨
      ∃ w : Way, MergedRows.ofCursors s labels cursors = w.make cursors := by
  have hguard {α : Type} (x : Outcome α) {k : α → Except MergeFailure MergedRows}
      (hk : ∀ a, (∃ f, k a = .error ⟨f, cursors⟩) ∨ ∃ w : Way, k a = w.make cursors) :
      (∃ f, (MergeFailure.guard cursors x >>= k) = .error ⟨f, cursors⟩) ∨
        ∃ w : Way, (MergeFailure.guard cursors x >>= k) = w.make cursors := by
    cases x with
    | error f => exact .inl ⟨f, rfl⟩
    | ok a => exact hk a
  unfold MergedRows.ofCursors
  refine hguard _ fun keys => ?_
  split
  · unfold MergedRows.group
    refine hguard _ fun columns => hguard _ fun groupKeys => ?_
    simp only
    split
    · exact .inr ⟨.stream keys _ columns, rfl⟩
    · exact .inr ⟨.hold keys _ columns, rfl⟩
  · split
    · exact .inr ⟨.hold keys _ [], rfl⟩
    · split
      · exact .inr ⟨.chain, rfl⟩
      · exact .inr ⟨.order keys, rfl⟩

/-- **The failure of a cursor is not mistaken for its end.**  The calls that are made lead from the
cursors that were given to those that are left.  If one of them fails then its failure is reported,
as one of merging.  If none is reported then no call failed, every cursor said that it has no more
rows, and every row came to light, in one row or in one group. -/
theorem reads_complete (h : w.Reads cursors rows x calls after) :
    Replays cursors calls after ∧
      (∀ call ∈ calls, ∀ f, call.failure? = some f → ∃ e, x = .error e ∧ Reports e f) ∧
      (x = .ok () → (∀ call ∈ calls, call.failure? = none) ∧ Exhausted cursors.length calls ∧
        ∃ parts : List (List PhysicalRow), parts.flatten.Perm (cursors.flatMap Cursor.unread) ∧
          List.Forall₂ w.Surfaces parts rows) := by
  have htraced := h.traced
  refine ⟨htraced.replays, ?_, ?_⟩
  · intro call hcall f hf
    exact ⟨_, htraced.propagates call hcall f hf, Cursor.reports_fault f⟩
  · rintro rfl
    refine ⟨htraced.failure?_eq_none, ?_⟩
    cases h with
    | @drained m _ _ _ _ hmake hdrains =>
        have hstands := w.stands_make cursors
        have hmade := w.traced_make cursors
        rw [hmake] at hstands hmade
        obtain ⟨left, hstands, hperm⟩ := hstands
        obtain ⟨⟨parts, hparts, hforall⟩, hended⟩ := hstands.drains hdrains rfl
        rw [hmade.replays.length_eq] at hended
        exact ⟨hended, parts, hparts.trans hperm, hforall⟩

/-- Two rows come in order from two cursors.  A cursor that is lost behind its only row is not taken
for one that has no more. -/
theorem reads_complete_examples :
    (∃ calls after, (order [⟨0, .asc, none⟩]).Reads
        [.ofRows ["n"] [[.int 2]], .ofRows ["n"] [[.int 1]]] [[.int 1], [.int 2]] (.ok ()) calls
          after ∧ Exhausted 2 calls) ∧
    ∃ calls after e, chain.Reads
        [{ labels := ["n"], rest := [[.int 1]], plan := ⟨fun
          | 1 => some (.execution "lost")
          | _ => none, fun _ _ => none, fun _ => none⟩ }] [[.int 1]] (.error e) calls after ∧
      Reports e (.execution "lost") := by
  constructor
  · have hreads : (order [⟨0, .asc, none⟩]).Reads
        [.ofRows ["n"] [[.int 2]], .ofRows ["n"] [[.int 1]]] [[.int 1], [.int 2]] (.ok ()) _ _ :=
      .drained rfl (.row rfl rfl (.row rfl rfl (.done rfl)))
    exact ⟨_, _, hreads, ((reads_complete hreads).2.2 rfl).2.1⟩
  · have hreads : chain.Reads
        [{ labels := ["n"], rest := [[.int 1]], plan := ⟨fun
          | 1 => some (.execution "lost")
          | _ => none, fun _ _ => none, fun _ => none⟩ }] [[.int 1]] (.error _) _ _ :=
      .drained rfl (.row rfl rfl (.failed rfl))
    obtain ⟨e, he, hreports⟩ := (reads_complete hreads).2.1 (.next 0 (.error (.execution "lost")))
      (.tail _ (.head _)) _ rfl
    cases he
    exact ⟨_, _, _, hreads, hreports⟩

end Way

end ShardedSql
