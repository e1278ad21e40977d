/-
**The rows that nobody has read yet.**

A queue moves its cursors on, lets them wait on their rows, and takes one after another out of those
that wait.  On the way no row is lost and none comes twice, whichever order the rows are in and
whether or not the order is total: what is still to come is, at any time, the rows that cursors wait
on and the rows behind those.  A cursor that neither waits nor is the one being read has said that
it has no more rows.

All this is true of cursors that may fail, as long as none of them did.

Main definitions:

* `ShardedSql.PhysicalRow` — a row with the labels that it came under;
* `ShardedSql.Cursor.unread`, `ShardedSql.CursorQueue.unread` — the rows that are still to come;
* `ShardedSql.Exhausted` — all cursors said that they have no more rows;
* `ShardedSql.CursorQueue.Lined` — which cursors wait, and which have ended.

Main results:

* `ShardedSql.Cursor.row_of_ok` — what is read of a row;
* `ShardedSql.CursorQueue.Lined.pull`, `ShardedSql.CursorQueue.Lined.pop` — no row is lost when a
  cursor is pulled, and one comes up when a cursor is taken out;
* `ShardedSql.CursorQueue.Lined.next` — **moving on comes to one of the rows that are still to come,
  and ends when there are none and every cursor said so**;
* `ShardedSql.CursorQueue.lined_start` — at the start all rows are still to come.
-/

import ShardedSql.Proofs.Merging.Calls

set_option relaxedAutoImplicit false
set_option autoImplicit false

namespace ShardedSql

/-- A row of a cursor, with the labels that it came under. -/
structure PhysicalRow where
  labels : List String
  values : Row
  deriving Repr, DecidableEq, Inhabited

/-- What is read of a row: a value for each label. -/
def PhysicalRow.read (p : PhysicalRow) : Row := p.values.take p.labels.length

/-- All of some cursors said that they have no more rows. -/
def Exhausted (n : Nat) (log : List PhysicalCall) : Prop :=
  ∀ i < n, PhysicalCall.next i (.ok false) ∈ log

theorem Exhausted.append {n : Nat} {log : List PhysicalCall} (h : Exhausted n log)
    (calls : List PhysicalCall) : Exhausted n (log ++ calls) :=
  fun i hi => List.mem_append_left calls (h i hi)

/-- No cursor is added or dropped. -/
theorem Replays.length_eq {before after : List Cursor} {calls : List PhysicalCall}
    (h : Replays before calls after) : after.length = before.length := by
  induction h with
  | done _ => rfl
  | next _ _ ih => rw [ih, List.length_set]
  | value _ _ _ ih => exact ih

/-! ### The rows of a cursor -/

namespace Cursor

variable {c : Cursor} {p : PhysicalRow}

/-- The rows that a cursor has not come to yet. -/
def unread (c : Cursor) : List PhysicalRow := c.rest.map fun row => ⟨c.labels, row⟩

/-- The row that a cursor stands on. -/
def standing? (c : Cursor) : Option PhysicalRow := c.current.map fun row => ⟨c.labels, row⟩

/-- The row that the cursor with a number stands on. -/
def standingAt? (cs : List Cursor) (i : Nat) : Option PhysicalRow := cs[i]?.bind standing?

theorem standingAt?_set_self {cs : List Cursor} {i : Nat} (hi : i < cs.length) (d : Cursor) :
    standingAt? (cs.set i d) i = d.standing? := by
  rw [standingAt?, List.getElem?_set_self hi, Option.bind_some]

theorem standingAt?_set_ne {cs : List Cursor} {i j : Nat} (hne : j ≠ i) (d : Cursor) :
    standingAt? (cs.set i d) j = standingAt? cs j := by
  rw [standingAt?, List.getElem?_set_ne (Ne.symm hne), standingAt?]

theorem exists_of_advance_true (h : c.advance.1 = .ok true) :
    ∃ p, c.unread = p :: c.advance.2.unread ∧ c.advance.2.standing? = some p := by
  unfold advance next at h ⊢
  cases hplan : c.plan.next c.nexts with
  | some f => simp [hplan, Except.mapError] at h
  | none =>
      cases hrest : c.rest with
      | nil => simp [hplan, hrest, Except.mapError] at h
      | cons row rest => exact ⟨⟨c.labels, row⟩, by simp [unread, hrest], rfl⟩

/-- A cursor without more rows has said so itself. -/
theorem of_advance_false (h : c.advance.1 = .ok false) :
    c.next.1 = .ok false ∧ c.unread = [] ∧ c.advance.2.unread = [] := by
  unfold advance next at h ⊢
  cases hplan : c.plan.next c.nexts with
  | some f => simp [hplan, Except.mapError] at h
  | none =>
      cases hrest : c.rest with
      | nil => simp [unread, hrest]
      | cons row rest => simp [hplan, hrest, Except.mapError] at h

theorem getElem?_of_cell {column : Nat} {v : Value} (hp : c.standing? = some p)
    (h : c.cell column = .ok v) : p.values[column]? = some v := by
  obtain ⟨row, hrow, rfl⟩ := Option.map_eq_some_iff.1 hp
  unfold cell value rowValue at h
  cases hplan : c.plan.value c.nexts column with
  | some f => simp [hplan, Except.mapError] at h
  | none =>
      cases hget : row[column]? with
      | none => simp [hplan, hrow, hget, Except.mapError] at h
      | some u =>
          simp only [hplan, hrow, hget, Except.mapError, Except.ok.injEq] at h
          rw [← h]

/-- **What is read of a row.** -/
theorem row_of_ok {values : Row} (hp : c.standing? = some p) (h : c.row = .ok values) :
    values = p.read := by
  have hlabels : p.labels = c.labels := by
    obtain ⟨row, -, rfl⟩ := Option.map_eq_some_iff.1 hp
    rfl
  rw [row, Outcome.mapM_eq_ok] at h
  have hcells := List.forall₂_iff_get.1 h
  have hlength : values.length = c.labels.length := by
    rw [← hcells.1, List.length_range]
  rw [PhysicalRow.read, hlabels]
  refine List.ext_getElem? fun i => ?_
  by_cases hi : i < c.labels.length
  · have hcell := hcells.2 i (by simpa using hi) (by omega)
    rw [List.get_eq_getElem, List.get_eq_getElem, List.getElem_range] at hcell
    rw [List.getElem?_take_of_lt hi, getElem?_of_cell hp hcell, List.getElem?_eq_getElem]
  · rw [List.getElem?_eq_none (by omega), List.getElem?_eq_none]
    rw [List.length_take]
    omega

end Cursor

/-! ### The rows of a queue -/

namespace CursorQueue

variable {q : CursorQueue} {i : Nat} {idle : List Nat} {log : List PhysicalCall}

/-- The row that a queue stands on. -/
def standing? (q : CursorQueue) : Option PhysicalRow :=
  q.current.bind (Cursor.standingAt? q.cursors)

/-- The numbers of the cursors that wait. -/
def waits (q : CursorQueue) : List Nat := q.waiting.toList.map (·.cursor)

/-- The rows that a queue has not come to yet: those that cursors wait on, and those behind them. -/
def unread (q : CursorQueue) : List PhysicalRow :=
  q.waits.filterMap (Cursor.standingAt? q.cursors) ++ q.cursors.flatMap Cursor.unread

/-- Of the cursors of a queue some are idle and some wait, each of these on a row.  The others have
said that they have no more rows. -/
structure Lined (q : CursorQueue) (idle : List Nat) (log : List PhysicalCall) : Prop where
  nodup : (idle ++ q.waits).Nodup
  standing : ∀ i ∈ q.waits, (Cursor.standingAt? q.cursors i).isSome
  ended : ∀ i c, q.cursors[i]? = some c → i ∉ idle ++ q.waits →
    c.unread = [] ∧ PhysicalCall.next i (.ok false) ∈ log

/-- Further calls take nothing back. -/
theorem Lined.append (h : Lined q idle log) (calls : List PhysicalCall) :
    Lined q idle (log ++ calls) := by
  refine ⟨h.nodup, h.standing, fun i c hget hnot => ?_⟩
  obtain ⟨hnil, hlog⟩ := h.ended i c hget hnot
  exact ⟨hnil, List.mem_append_left calls hlog⟩

/-- What pulling a cursor does when it does not fail. -/
theorem pull_ok_cases (h : (q.pull i).1 = .ok ()) : ∃ c, q.cursors[i]? = some c ∧
    (c.advance.1 = .ok false ∧ (q.pull i).2 = { q with cursors := q.cursors.set i c.advance.2 } ∨
      c.advance.1 = .ok true ∧ ∃ values, (q.pull i).2 = { q with
        cursors := q.cursors.set i c.advance.2
        waiting := q.waiting.push (before q.keys) ⟨values, i⟩ }) := by
  unfold pull at h ⊢
  cases hget : q.cursors[i]? with
  | none => simp [hget] at h
  | some c =>
      refine ⟨c, rfl, ?_⟩
      cases hadvance : c.advance.1 with
      | error f => simp [hget, hadvance] at h
      | ok found =>
          cases found with
          | false => exact .inl ⟨rfl, by simp [hadvance]⟩
          | true =>
              cases hvalues : q.keys.mapM fun k => c.advance.2.cell k.index with
              | error f => simp [hget, hadvance, hvalues] at h
              | ok values => exact .inr ⟨rfl, values, by simp [hadvance, hvalues]⟩

variable {c : Cursor}

/-- A cursor that has no more rows was idle, and has ended then. -/
theorem Lined.ends (h : Lined q (i :: idle) log) (hget : q.cursors[i]? = some c)
    (hadvance : c.advance.1 = .ok false) (hcall : PhysicalCall.next i (.ok false) ∈ log) :
    Lined { q with cursors := q.cursors.set i c.advance.2 } idle log ∧
      (unread { q with cursors := q.cursors.set i c.advance.2 }).Perm q.unread := by
  obtain ⟨hi, hnodup⟩ := List.nodup_cons.1 h.nodup
  have hother : ∀ j ∈ q.waits, j ≠ i := fun j hj hji => hi (List.mem_append_right idle (hji ▸ hj))
  obtain ⟨-, hunread, hunread'⟩ := Cursor.of_advance_false hadvance
  refine ⟨⟨hnodup, fun j hj => ?_, fun j d hj hnot => ?_⟩, ?_⟩
  · rw [Cursor.standingAt?_set_ne (hother j hj)]
    exact h.standing j hj
  · by_cases hji : j = i
    · subst hji
      rw [List.getElem?_set_self (List.getElem?_eq_some_iff.1 hget).1] at hj
      cases hj
      exact ⟨hunread', hcall⟩
    · rw [List.getElem?_set_ne (Ne.symm hji)] at hj
      refine h.ended j d hj fun hmem => ?_
      rcases List.mem_cons.1 hmem with he | hmem
      · exact hji he
      · exact hnot hmem
  · have hrows := Lists.flatMap_set_perm (f := Cursor.unread) hget c.advance.2
    rw [hunread, hunread', List.append_nil, List.append_nil] at hrows
    have hwaiting : q.waits.filterMap (Cursor.standingAt? (q.cursors.set i c.advance.2)) =
        q.waits.filterMap (Cursor.standingAt? q.cursors) :=
      List.filterMap_congr fun j hj => Cursor.standingAt?_set_ne (hother j hj) _
    change (q.waits.filterMap (Cursor.standingAt? (q.cursors.set i c.advance.2)) ++ _).Perm _
    rw [hwaiting]
    exact hrows.append_left _

/-- A cursor that came to a row waits on it. -/
theorem Lined.waits (h : Lined q (i :: idle) log) (hget : q.cursors[i]? = some c)
    (hadvance : c.advance.1 = .ok true) (values : List Value) :
    Lined { q with
        cursors := q.cursors.set i c.advance.2
        waiting := q.waiting.push (before q.keys) ⟨values, i⟩ } idle log ∧
      (unread { q with
        cursors := q.cursors.set i c.advance.2
        waiting := q.waiting.push (before q.keys) ⟨values, i⟩ }).Perm q.unread := by
  obtain ⟨hi, hnodup⟩ := List.nodup_cons.1 h.nodup
  have hother : ∀ j ∈ q.waits, j ≠ i := fun j hj hji => hi (List.mem_append_right idle (hji ▸ hj))
  have hlt := (List.getElem?_eq_some_iff.1 hget).1
  obtain ⟨p, hunread, hstanding⟩ := Cursor.exists_of_advance_true hadvance
  have hself : Cursor.standingAt? (q.cursors.set i c.advance.2) i = some p :=
    (Cursor.standingAt?_set_self hlt _).trans hstanding
  have hwaits : ((q.waiting.push (before q.keys) ⟨values, i⟩).toList.map (·.cursor)).Perm
      (i :: q.waits) := (Heap.push_perm (before q.keys) ⟨values, i⟩ q.waiting).map (·.cursor)
  have hmembers :
      ((idle ++ (q.waiting.push (before q.keys) ⟨values, i⟩).toList.map (·.cursor))).Perm
        (i :: (idle ++ q.waits)) := (hwaits.append_left idle).trans List.perm_middle
  refine ⟨⟨hmembers.nodup_iff.2 h.nodup, fun j hj => ?_, fun j d hj hnot => ?_⟩, ?_⟩
  · rcases List.mem_cons.1 (hwaits.mem_iff.1 hj) with rfl | hj
    · rw [hself]
      rfl
    · rw [Cursor.standingAt?_set_ne (hother j hj)]
      exact h.standing j hj
  · have hnot' : j ∉ i :: (idle ++ q.waits) := fun hmem => hnot (hmembers.mem_iff.2 hmem)
    have hne : i ≠ j := fun he => hnot' (he ▸ List.mem_cons_self ..)
    rw [List.getElem?_set_ne hne] at hj
    exact h.ended j d hj hnot'
  · -- the first of its rows is one that a cursor waits on now
    have hrows := Lists.flatMap_set_perm (f := Cursor.unread) hget c.advance.2
    rw [hunread] at hrows
    have hrest : (p :: (q.cursors.set i c.advance.2).flatMap Cursor.unread).Perm
        (q.cursors.flatMap Cursor.unread) :=
      (List.perm_append_right_iff c.advance.2.unread).1 (List.perm_middle.symm.trans hrows)
    have hwaiting := hwaits.filterMap (Cursor.standingAt? (q.cursors.set i c.advance.2))
    rw [List.filterMap_cons_some hself, List.filterMap_congr fun j hj =>
      Cursor.standingAt?_set_ne (hother j hj) c.advance.2] at hwaiting
    refine (hwaiting.append_right _).trans ?_
    rw [List.cons_append]
    exact List.perm_middle.symm.trans (hrest.append_left _)

/-- **Pulling a cursor loses no row.**  The cursor waits then or has said that it has no more. -/
theorem Lined.pull (h : Lined q (i :: idle) log) (hok : (q.pull i).1 = .ok ()) :
    Lined (q.pull i).2 idle (log ++ q.pullCalls i) ∧ (q.pull i).2.unread.Perm q.unread ∧
      (q.pull i).2.current = q.current := by
  obtain ⟨c, hget, hcase⟩ := pull_ok_cases hok
  have hcall : c.nextCall i ∈ q.pullCalls i := by
    rw [pullCalls, hget]
    exact List.mem_append_left _ (List.mem_singleton.2 rfl)
  have hlog := h.append (q.pullCalls i)
  rcases hcase with ⟨hadvance, hpull⟩ | ⟨hadvance, values, hpull⟩
  · rw [Cursor.nextCall, (Cursor.of_advance_false hadvance).1] at hcall
    obtain ⟨hlined, hperm⟩ := hlog.ends hget hadvance (List.mem_append_right log hcall)
    rw [hpull]
    exact ⟨hlined, hperm, rfl⟩
  · obtain ⟨hlined, hperm⟩ := hlog.waits hget hadvance values
    rw [hpull]
    exact ⟨hlined, hperm, rfl⟩

/-- Pulling all idle cursors loses no row. -/
theorem Lined.pullAll (h : Lined q idle log) (hok : (q.pullAll idle).1 = .ok ()) :
    Lined (q.pullAll idle).2 [] (log ++ q.pullAllCalls idle) ∧
      (q.pullAll idle).2.unread.Perm q.unread ∧ (q.pullAll idle).2.current = q.current := by
  induction idle generalizing q log with
  | nil =>
      rw [pullAllCalls, List.append_nil]
      exact ⟨h, .refl _, rfl⟩
  | cons i idle ih =>
      rw [CursorQueue.pullAll] at hok ⊢
      rw [pullAllCalls]
      cases hpull : (q.pull i).1 with
      | error f =>
          have hpair : q.pull i = (.error f, (q.pull i).2) := Prod.ext hpull rfl
          rw [hpair] at hok
          cases hok
      | ok _ =>
          obtain ⟨hlined, hperm, hcurrent⟩ := h.pull hpull
          have hpair : q.pull i = (.ok (), (q.pull i).2) := Prod.ext hpull rfl
          generalize (q.pull i).2 = q' at hlined hperm hcurrent hpair
          rw [hpair] at hok ⊢
          obtain ⟨hlined', hperm', hcurrent'⟩ := ih hlined hok
          rw [← List.append_assoc]
          exact ⟨hlined', hperm'.trans hperm, hcurrent'.trans hcurrent⟩

/-- **A cursor that is taken out stands on one of the rows that are still to come.**  When none
waits all have ended. -/
theorem Lined.pop (h : Lined q [] log) :
    match q.pop with
    | (false, _) => q.unread = [] ∧ Exhausted q.cursors.length log
    | (true, q') => ∃ p, q'.standing? = some p ∧ q.unread.Perm (p :: q'.unread) ∧
        Lined q' q'.current.toList log := by
  rw [CursorQueue.pop]
  cases hpop : q.waiting.pop (before q.keys) with
  | none =>
      have hwaits : q.waits = [] := by
        rw [CursorQueue.waits, Heap.pop_eq_none_iff.1 hpop]
        rfl
      have hended : ∀ i c, q.cursors[i]? = some c →
          c.unread = [] ∧ PhysicalCall.next i (.ok false) ∈ log := fun i c hget =>
        h.ended i c hget (by simp [hwaits])
      refine ⟨?_, fun i hi => (hended i _ (List.getElem?_eq_getElem hi)).2⟩
      rw [unread, hwaits, List.filterMap_nil, List.nil_append, List.flatMap_eq_nil_iff]
      intro c hc
      obtain ⟨i, hget⟩ := List.mem_iff_getElem?.1 hc
      exact (hended i c hget).1
  | some popped =>
      obtain ⟨w, rest⟩ := popped
      have hperm : q.waits.Perm (w.cursor :: rest.toList.map (·.cursor)) :=
        (Heap.pop_perm hpop).map Waiting.cursor
      obtain ⟨p, hp⟩ := Option.isSome_iff_exists.1
        (h.standing w.cursor (hperm.mem_iff.2 (List.mem_cons_self ..)))
      refine ⟨p, hp, ?_, ?_, fun i hi => ?_, fun i c hget hnot => ?_⟩
      · have hmap := hperm.filterMap (Cursor.standingAt? q.cursors)
        rw [List.filterMap_cons_some hp] at hmap
        exact hmap.append_right _
      · exact hperm.nodup_iff.1 h.nodup
      · exact h.standing i (hperm.mem_iff.2 (List.mem_cons_of_mem _ hi))
      · exact h.ended i c hget fun hmem => hnot (hperm.mem_iff.1 hmem)

/-- **Moving on comes to one of the rows that are still to come.**  It ends when there are none, and
then every cursor said so. -/
theorem Lined.next (h : Lined q q.current.toList log) :
    match q.next with
    | (.error _, _) => True
    | (.ok false, _) => q.unread = [] ∧ Exhausted q.cursors.length (log ++ q.nextCalls)
    | (.ok true, q') => ∃ p, q'.standing? = some p ∧ q.unread.Perm (p :: q'.unread) ∧
        Lined q' q'.current.toList (log ++ q.nextCalls) := by
  unfold CursorQueue.next nextCalls
  cases hcurrent : q.current with
  | none =>
      rw [hcurrent] at h
      have hpop := Lined.pop h
      simp only [List.append_nil]
      generalize q.pop = popped at hpop ⊢
      obtain ⟨found, q'⟩ := popped
      cases found <;> exact hpop
  | some i =>
      rw [hcurrent] at h
      have hidle : Lined { q with current := none } [i] log := ⟨h.nodup, h.standing, h.ended⟩
      have hpull (hok : (CursorQueue.pull { q with current := none } i).1 = .ok ()) :=
        hidle.pull hok
      have hlength := (traced_pull { q with current := none } i).replays.length_eq
      have hsame : CursorQueue.unread { q with current := none } = q.unread := rfl
      rw [hsame] at hpull
      simp only
      generalize CursorQueue.pull { q with current := none } i = pulled at hpull hlength ⊢
      obtain ⟨x, q'⟩ := pulled
      cases x with
      | error f => trivial
      | ok _ =>
          obtain ⟨hlined, hperm, -⟩ := hpull rfl
          have hpop := Lined.pop hlined
          simp only
          generalize q'.pop = popped at hpop ⊢
          obtain ⟨found, q''⟩ := popped
          cases found with
          | false =>
              simp only at hpop ⊢
              obtain ⟨hnil, hended⟩ := hpop
              rw [hnil, List.nil_perm] at hperm
              rw [hlength] at hended
              exact ⟨hperm, hended⟩
          | true =>
              simp only at hpop ⊢
              obtain ⟨p, hp, hunread, hlined'⟩ := hpop
              exact ⟨p, hp, hperm.symm.trans hunread, hlined'⟩

/-- **At the start all rows are still to come.** -/
theorem lined_start {keys : List SortKey} {cursors : List Cursor}
    (hok : (start keys cursors).1 = .ok ()) :
    Lined (start keys cursors).2 [] (startCalls keys cursors) ∧
      (start keys cursors).2.unread.Perm (cursors.flatMap Cursor.unread) ∧
      (start keys cursors).2.current = none := by
  have hidle : Lined { cursors := cursors, keys := keys } (List.range cursors.length) [] := by
    refine ⟨?_, fun i hi => absurd hi List.not_mem_nil, fun i c hget hnot => ?_⟩
    · rw [CursorQueue.waits, Heap.toList, List.map_nil, List.append_nil]
      exact List.nodup_range
    · have hi := (List.getElem?_eq_some_iff.1 hget).1
      exact absurd (List.mem_append_left _ (List.mem_range.2 hi)) hnot
  exact hidle.pullAll hok

end CursorQueue

end ShardedSql
