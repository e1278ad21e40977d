/-
**Groups that are made while the rows are read.**

A stream of groups stands on the first row behind the group that it made last.  The next group takes
in this row and those behind it that have its key; it ends before the first row with another key,
which has to be read to find that out.  When the rows are in order no later row has the key.

Main definitions:

* `ShardedSql.Cursor.Fits` — the rows of a cursor are as wide as its labels say;
* `ShardedSql.CursorQueue.Ahead` — the rows that a queue gives, each of which can be read at once;
* `ShardedSql.GroupStream.Stands` — the rows that a stream of groups has before it.

Main results:

* `ShardedSql.CursorQueue.size_next` — moving on to a row uses one up, so that no group is cut off;
* `ShardedSql.CursorQueue.Reading.ahead` — a queue of cursors in order gives their rows sorted;
* `ShardedSql.GroupStream.next_spec` — **one step makes the group of the rows with the first key**;
* `ShardedSql.GroupStream.offers_of_stands` — a stream offers the row of the group of each key;
* `ShardedSql.MergedRows.streamGroups_offers` — **the stream of some cursors offers the groups of
  all their rows in the order of their keys**.
-/

import ShardedSql.Proofs.Draining
import ShardedSql.Proofs.Grouping.Order

set_option relaxedAutoImplicit false
set_option autoImplicit false

namespace ShardedSql

open SortKey

/-! ### Cursors whose rows are as wide as their labels say -/

namespace Cursor

/-- The rows of a cursor are as wide as its labels say. -/
def Fits (c : Cursor) : Prop := ∀ row ∈ c.current.toList ++ c.rest, row.length = c.labels.length

/-- Moving on uses up a row at most. -/
theorem length_advance (c : Cursor) :
    c.advance.2.rest.length ≤ c.rest.length ∧
      (c.advance.1 = .ok true → c.advance.2.rest.length + 1 = c.rest.length) := by
  unfold advance next
  cases c.plan.next c.nexts with
  | some f => simp [Except.mapError]
  | none => cases c.rest <;> simp [Except.mapError]

theorem Fits.advance {c : Cursor} (h : c.Fits) : c.advance.2.Fits := by
  unfold Cursor.advance next
  cases c.plan.next c.nexts with
  | some f => exact h
  | none =>
      cases hrest : c.rest with
      | nil =>
          intro row hrow
          simp at hrow
      | cons r rest =>
          intro row hrow
          refine h row (List.mem_append_right _ ?_)
          rw [hrest]
          simpa using hrow

end Cursor

namespace CursorQueue

variable {q : CursorQueue} {i : Nat}

/-- What pulling a cursor does to the queue, whether or not it fails. -/
theorem pull_cases (q : CursorQueue) (i : Nat) :
    (q.pull i).2 = q ∨ ∃ c, q.cursors[i]? = some c ∧
      (q.pull i).2.cursors = q.cursors.set i c.advance.2 ∧
      ((q.pull i).2.waiting.size = q.waiting.size ∨
        c.advance.1 = .ok true ∧ (q.pull i).2.waiting.size = q.waiting.size + 1) := by
  unfold pull
  cases hget : q.cursors[i]? with
  | none => exact .inl rfl
  | some c =>
      refine .inr ⟨c, rfl, ?_⟩
      cases hadvance : c.advance.1 with
      | error f => simp [hadvance]
      | ok found =>
          cases found with
          | false => simp [hadvance]
          | true =>
              cases hvalues : q.keys.mapM fun k => c.advance.2.cell k.index with
              | error f => simp [hadvance, hvalues]
              | ok values => simp [hadvance, hvalues]

theorem next_cases (q : CursorQueue) :
    (q.current = none ∧ q.next = (.ok q.pop.1, q.pop.2)) ∨
    ∃ i, q.current = some i ∧
      ((∃ f, q.next = (.error f, (pull { q with current := none } i).2)) ∨
        q.next = (.ok (pull { q with current := none } i).2.pop.1,
          (pull { q with current := none } i).2.pop.2)) := by
  unfold next
  cases hcurrent : q.current with
  | none => exact .inl ⟨rfl, rfl⟩
  | some i =>
      refine .inr ⟨i, rfl, ?_⟩
      cases hpull : (pull { q with current := none } i).1 with
      | error f =>
          have hpair : pull { q with current := none } i = (.error f, _) := Prod.ext hpull rfl
          exact .inl ⟨f, by simp only; rw [hpair]⟩
      | ok _ =>
          have hpair : pull { q with current := none } i = (.ok (), _) := Prod.ext hpull rfl
          exact .inr (by simp only; rw [hpair])

/-- Another cursor in the place of one changes the number of rows that were not reached. -/
theorem unreached_set {cursors : List Cursor} {c : Cursor} (hget : cursors[i]? = some c)
    (d : Cursor) :
    (cursors.set i d).foldr (fun c n => c.rest.length + n) 0 + c.rest.length =
      cursors.foldr (fun c n => c.rest.length + n) 0 + d.rest.length := by
  induction cursors generalizing i with
  | nil => cases hget
  | cons e cursors ih =>
      cases i with
      | zero =>
          cases hget
          simp only [List.set_cons_zero, List.foldr_cons]
          omega
      | succ i =>
          have hrest := ih hget
          simp only [List.set_cons_succ, List.foldr_cons]
          omega

/-- A cursor that is pulled lets a row wait, which it has no longer then. -/
theorem size_pull (q : CursorQueue) (i : Nat) : (q.pull i).2.size ≤ q.size := by
  rcases pull_cases q i with hsame | ⟨c, hget, hcursors, hwaiting⟩
  · rw [hsame]
  · have hset := unreached_set hget c.advance.2
    obtain ⟨hle, hused⟩ := Cursor.length_advance c
    unfold size
    rw [hcursors]
    rcases hwaiting with hwaiting | ⟨hok, hwaiting⟩
    · omega
    · have hone := hused hok
      omega

/-- **Moving on to a row uses one up.** -/
theorem size_next (h : q.next.1 = .ok true) : q.next.2.size + 1 ≤ q.size := by
  rcases next_cases q with ⟨-, hnext⟩ | ⟨i, -, ⟨f, hnext⟩ | hnext⟩
  · rw [hnext, Except.ok.injEq] at h
    rw [hnext]
    exact Nat.le_of_eq (size_pop h)
  · rw [hnext] at h
    cases h
  · rw [hnext, Except.ok.injEq] at h
    rw [hnext]
    have hpop := size_pop h
    have hpull := size_pull { q with current := none } i
    have hsize : CursorQueue.size { q with current := none } = q.size := rfl
    simp only
    omega

section Invariant

variable {P : Cursor → Prop}

/-- What moving on keeps of a cursor is true of all cursors after one of them was pulled. -/
theorem forall_pull (hadvance : ∀ c, P c → P c.advance.2) (h : ∀ c ∈ q.cursors, P c) (i : Nat) :
    ∀ c ∈ (q.pull i).2.cursors, P c := by
  rcases pull_cases q i with hsame | ⟨c, hget, hcursors, -⟩
  · rwa [hsame]
  · rw [hcursors]
    intro d hd
    rcases List.mem_or_eq_of_mem_set hd with hd | rfl
    · exact h d hd
    · exact hadvance c (h c (List.mem_of_getElem? hget))

theorem forall_pullAll (hadvance : ∀ c, P c → P c.advance.2) (h : ∀ c ∈ q.cursors, P c)
    (idle : List Nat) : ∀ c ∈ (q.pullAll idle).2.cursors, P c := by
  induction idle generalizing q with
  | nil => exact h
  | cons i idle ih =>
      have hpull := forall_pull hadvance h i
      rw [pullAll]
      generalize q.pull i = p at hpull
      obtain ⟨x, q'⟩ := p
      cases x with
      | error f => exact hpull
      | ok _ => exact ih hpull

theorem forall_next (hadvance : ∀ c, P c → P c.advance.2) (h : ∀ c ∈ q.cursors, P c) :
    ∀ c ∈ q.next.2.cursors, P c := by
  have hpull (i : Nat) := forall_pull (q := { q with current := none }) hadvance h i
  rcases next_cases q with ⟨-, hnext⟩ | ⟨i, -, ⟨f, hnext⟩ | hnext⟩
  · rw [hnext]
    simpa only [cursors_pop] using h
  · rw [hnext]
    exact hpull i
  · rw [hnext]
    simpa only [cursors_pop] using hpull i

end Invariant

/-- The row that a queue stands on can be read at once when it is as wide as its labels say. -/
theorem StandsOn.row_eq {row : Row} (h : q.StandsOn row) (hfits : ∀ c ∈ q.cursors, c.Fits) :
    q.row = .ok row := by
  obtain ⟨c, hc, hplan, hcurrent⟩ := h
  have hmem : c ∈ q.cursors := by
    unfold cursor? at hc
    cases hbind : q.current.bind fun i => q.cursors[i]? with
    | none =>
        rw [hbind] at hc
        cases hc
    | some d =>
        rw [hbind] at hc
        cases hc
        obtain ⟨i, -, hget⟩ := Option.bind_eq_some_iff.1 hbind
        exact List.mem_of_getElem? hget
  have hlength : row.length = c.labels.length := hfits c hmem row (by simp [hcurrent])
  rw [CursorQueue.row, hc]
  exact Cursor.row_eq hplan hcurrent hlength

/-! ### The rows ahead of a queue -/

/-- The rows that a queue gives, each of which can be read at once. -/
def Ahead (q : CursorQueue) (rows : List Row) : Prop :=
  Offering CursorQueue.next (fun q row => q.row = .ok row) q (rows.map .ok)

theorem Ahead.nil (h : q.Ahead []) : q.next.1 = .ok false := by
  cases h with
  | done hnext => exact hnext

theorem Ahead.cons {row : Row} {rest : List Row} (h : q.Ahead (row :: rest)) :
    q.next.1 = .ok true ∧ q.next.2.row = .ok row ∧ q.next.2.Ahead rest := by
  cases h with
  | row hnext hrow hrest => exact ⟨hnext, hrow, hrest⟩

/-- No more rows are ahead than the size says. -/
theorem Ahead.length_le {rows : List Row} (h : q.Ahead rows) : rows.length ≤ q.size := by
  induction rows generalizing q with
  | nil => exact Nat.zero_le _
  | cons row rows ih =>
      obtain ⟨hnext, -, hrest⟩ := h.cons
      have hused := size_next hnext
      have hlength := ih hrest
      rw [List.length_cons]
      omega

/-- **A queue of cursors in order gives their rows sorted.** -/
theorem Reading.ahead {keys : List SortKey} {left : List (List Row)} (h : Reading keys q left)
    (hfits : ∀ c ∈ q.cursors, c.Fits) : q.Ahead (sortRows keys left.flatten) := by
  have hoffers := h.offers
  unfold Ahead
  generalize (sortRows keys left.flatten).map Except.ok = outs at hoffers
  clear h
  induction hoffers with
  | done hnext => exact .done hnext
  | row hnext hstands _ ih =>
      have hfits' := forall_next (fun _ => Cursor.Fits.advance) hfits
      exact .row hnext (hstands.row_eq hfits') (ih hfits')
  | fault hnext => exact .fault hnext

end CursorQueue

/-! ### The rows of the first key -/

namespace Group

variable {groupColumns : List Nat} {columns : List AggregateColumn} {row : Row} {rest : List Row}

/-- The rows that have another key. -/
def others (groupColumns : List Nat) (row : Row) (rest : List Row) : List Row :=
  rest.filter fun r => !decide (keyOf groupColumns r = keyOf groupColumns row)

theorem keysOf_cons :
    keysOf groupColumns (row :: rest) =
      keyOf groupColumns row :: keysOf groupColumns (others groupColumns row rest) := by
  have hothers :
      (rest.map (keyOf groupColumns)).filter (fun key => !key == keyOf groupColumns row) =
        (others groupColumns row rest).map (keyOf groupColumns) := by
    rw [others, List.filter_map]
    refine congrArg _ (List.filter_congr fun r _ => ?_)
    rw [Function.comp_apply, beq_eq_decide]
  rw [keysOf, List.map_cons, List.eraseDups_cons, hothers, keysOf]

theorem rowAt_cons_self :
    rowAt groupColumns columns (row :: rest) (keyOf groupColumns row) =
      ofRun columns (keyOf groupColumns row)
        (row :: rest.filter fun r => keyOf groupColumns r = keyOf groupColumns row) >>=
          finish columns := by
  rw [rowAt, atKey, List.filter_cons_of_pos (by simp)]

/-- Another key has its rows behind the first one. -/
theorem rowAt_cons_of_ne {key : List Value} (hkey : key ≠ keyOf groupColumns row) :
    rowAt groupColumns columns (row :: rest) key =
      rowAt groupColumns columns (others groupColumns row rest) key := by
  have hfilter : (others groupColumns row rest).filter (fun r => keyOf groupColumns r = key) =
      rest.filter fun r => keyOf groupColumns r = key := by
    rw [others, List.filter_filter]
    refine List.filter_congr fun r _ => ?_
    by_cases hr : keyOf groupColumns r = key
    · simp [hr, hkey]
    · simp [hr]
  rw [rowAt, rowAt, atKey, atKey, List.filter_cons_of_neg (by simpa using Ne.symm hkey), hfilter]

end Group

/-! ### One group after another -/

namespace GroupStream

open ShardedSql.Group

variable {s : GroupStream} {g : Group} {row : Row} {rest rows : List Row}

/-- The rows that a stream has before it: it stands on the first of them. -/
def Stands (s : GroupStream) : List Row → Prop
  | [] => s.pending = false
  | row :: rest => s.pending = true ∧ s.queue.row = .ok row ∧ s.queue.Ahead rest

theorem keyedRow_eq (hrow : s.queue.row = .ok row)
    (hwide : ∀ i ∈ s.groupColumns, i < row.length) :
    s.keyedRow = .ok (keyOf s.groupColumns row, row) := by
  have hkey : groupKey s.groupColumns row = .ok (keyOf s.groupColumns row) :=
    groupKey_eq_ok.2 ⟨hwide, rfl⟩
  rw [keyedRow, hrow]
  exact Outcome.bind_eq_ok.2 ⟨row, rfl, Outcome.bind_eq_ok.2 ⟨_, hkey, rfl⟩⟩

/-- The rows with a key from a row on, and what a stream has before it behind these. -/
theorem gather_spec {n : Nat} (g : Group) (row : Row) (hahead : s.queue.Ahead rest)
    (hn : rest.length ≤ n) (hwide : ∀ r ∈ rest, ∀ i ∈ s.groupColumns, i < r.length) :
    (∃ f, (gather n s g row).1 = .error f ∧
      (row :: rest.takeWhile fun r => keyOf s.groupColumns r = g.key).foldlM
        (fun g r => g.mergeInto s.columns r) g = .error f) ∨
    ∃ g' s', gather n s g row = (.ok g', s') ∧
      (row :: rest.takeWhile fun r => keyOf s.groupColumns r = g.key).foldlM
        (fun g r => g.mergeInto s.columns r) g = .ok g' ∧
      s'.groupColumns = s.groupColumns ∧ s'.columns = s.columns ∧
      s'.Stands (rest.dropWhile fun r => keyOf s.groupColumns r = g.key) := by
  induction rest generalizing n s g row with
  | nil =>
      have hnext : s.queue.next = (.ok false, s.queue.next.2) := Prod.ext hahead.nil rfl
      rw [gather, List.takeWhile_nil, List.foldlM_cons]
      cases hmerge : g.mergeInto s.columns row with
      | error f => exact .inl ⟨f, rfl, rfl⟩
      | ok g' =>
          refine .inr ⟨g', { s with queue := s.queue.next.2, pending := false }, ?_, rfl, rfl, rfl,
            rfl⟩
          rw [hnext]
  | cons r rest ih =>
      obtain ⟨hok, hrow, hahead'⟩ := hahead.cons
      have hnext : s.queue.next = (.ok true, s.queue.next.2) := Prod.ext hok rfl
      obtain ⟨hr, hrest⟩ := List.forall_mem_cons.1 hwide
      rw [gather, List.foldlM_cons]
      cases hmerge : g.mergeInto s.columns row with
      | error f => exact .inl ⟨f, rfl, rfl⟩
      | ok g' =>
          have hkey := (mergeInto_spec hmerge).1
          have hkeyed := keyedRow_eq (s := { s with queue := s.queue.next.2, pending := true })
            hrow hr
          rw [hnext]
          simp only [hkeyed]
          by_cases hsame : keyOf s.groupColumns r = g.key
          · -- the row behind has the key, and there is one step left for it
            obtain ⟨n, rfl⟩ := Nat.exists_eq_succ_of_ne_zero (Nat.ne_of_gt (Nat.zero_lt_of_lt hn))
            have hspec := ih (n := n) (s := { s with queue := s.queue.next.2, pending := true })
              g' r hahead' (Nat.le_of_succ_le_succ hn) hrest
            rw [if_pos (hsame.trans hkey.symm), List.takeWhile_cons_of_pos (by simpa using hsame),
              List.dropWhile_cons_of_pos (by simpa using hsame)]
            rw [hkey] at hspec
            exact hspec
          · rw [if_neg fun he => hsame (he.trans hkey),
              List.takeWhile_cons_of_neg (by simpa using hsame),
              List.dropWhile_cons_of_neg (by simpa using hsame)]
            exact .inr ⟨g', _, rfl, rfl, rfl, rfl, rfl, hrow, hahead'⟩

/-- **One step makes the group of the rows with the first key**, when no row behind one with another
key has it. -/
theorem next_spec (h : s.Stands (row :: rest))
    (hwide : ∀ r ∈ row :: rest, ∀ i ∈ s.groupColumns, i < r.length)
    (hclustered : rest.Pairwise fun a b =>
      decide (keyOf s.groupColumns b = keyOf s.groupColumns row) = true →
        decide (keyOf s.groupColumns a = keyOf s.groupColumns row) = true) :
    (∃ f, s.next.1 = .error f ∧
      rowAt s.groupColumns s.columns (row :: rest) (keyOf s.groupColumns row) = .error f) ∨
    ∃ out s', s.next = (.ok true, s') ∧
      rowAt s.groupColumns s.columns (row :: rest) (keyOf s.groupColumns row) = .ok out ∧
      s'.current = some out ∧ s'.groupColumns = s.groupColumns ∧ s'.columns = s.columns ∧
      s'.Stands (others s.groupColumns row rest) := by
  obtain ⟨hpending, hrow, hahead⟩ := h
  obtain ⟨hr, hrest⟩ := List.forall_mem_cons.1 hwide
  have hgather := gather_spec (Group.start s.columns (keyOf s.groupColumns row) row) row hahead
    hahead.length_le hrest
  have hkey : (Group.start s.columns (keyOf s.groupColumns row) row).key =
      keyOf s.groupColumns row := rfl
  rw [hkey, Lists.takeWhile_eq_filter hclustered, Lists.dropWhile_eq_filter hclustered] at hgather
  rw [rowAt_cons_self, ofRun, List.headD_cons]
  rcases hgather with ⟨f, hfail, hfold⟩ | ⟨g, s', hmade, hfold, hgroupColumns, hcolumns, hstands⟩
  · have hpair : gather s.queue.size s (Group.start s.columns (keyOf s.groupColumns row) row) row =
        (.error f, _) := Prod.ext hfail rfl
    refine .inl ⟨f, ?_, by rw [hfold]; rfl⟩
    simp only [next, if_pos hpending, keyedRow_eq hrow hr]
    rw [hpair]
  · rw [hfold]
    cases hfinish : g.finish s.columns with
    | error f =>
        refine .inl ⟨f, ?_, hfinish⟩
        simp only [next, if_pos hpending, keyedRow_eq hrow hr, hmade, hcolumns, hfinish]
    | ok out =>
        refine .inr ⟨out, { s' with current := some out }, ?_, hfinish, rfl, hgroupColumns,
          hcolumns, hstands⟩
        simp only [next, if_pos hpending, keyedRow_eq hrow hr, hmade, hcolumns, hfinish]

/-- At the start a stream stands on the first row, unless there is none. -/
theorem start_spec {keys : List SortKey} (groupColumns : List Nat) (columns : List AggregateColumn)
    {cursors : List Cursor} {q : CursorQueue}
    (hstart : CursorQueue.start keys cursors = (.ok (), q)) (hahead : q.Ahead rows) :
    ∃ s, start keys groupColumns columns cursors = (.ok (), s) ∧
      s.groupColumns = groupColumns ∧ s.columns = columns ∧ s.Stands rows := by
  unfold start
  rw [hstart]
  cases rows with
  | nil =>
      have hnext : q.next = (.ok false, q.next.2) := Prod.ext hahead.nil rfl
      simp only
      rw [hnext]
      exact ⟨_, rfl, rfl, rfl, rfl⟩
  | cons row rest =>
      obtain ⟨hok, hrow, hrest⟩ := hahead.cons
      have hnext : q.next = (.ok true, q.next.2) := Prod.ext hok rfl
      simp only
      rw [hnext]
      exact ⟨_, rfl, rfl, rfl, rfl, hrow, hrest⟩

/-- **A stream offers the row of the group of each key**, when the rows that it has before it are in
the order of their keys. -/
theorem offers_of_stands {keys : List SortKey} (hkeys : s.groupColumns = keys.map (·.index))
    (h : s.Stands rows) (hwide : ∀ r ∈ rows, ∀ i ∈ s.groupColumns, i < r.length)
    (hsorted : rows.Pairwise fun a b => (kindOrderOf keys a b).isLE) :
    Offering GroupStream.next (fun s row => s.current = some row) s
      ((keysOf s.groupColumns rows).map (rowAt s.groupColumns s.columns rows)) := by
  generalize hlength : rows.length = n
  induction n using Nat.strongRecOn generalizing s rows with
  | ind n ih =>
      cases rows with
      | nil =>
          have hnext : s.next = (.ok false, { s with current := none }) := by
            rw [next, if_neg (by rw [h]; exact Bool.false_ne_true)]
          exact .done (by rw [hnext])
      | cons row rest =>
          have hsub : (others s.groupColumns row rest).Sublist rest := List.filter_sublist
          have hclustered := Sorting.clustered_of_pairwise (kindOrderRows keys)
            (keyOf (keys.map (·.index))) (by simpa only [kindOrderOf_eq_keyOf] using hsorted)
            fun _ _ hab => eq_of_kindOrderRows_keyOf hab
          rw [← hkeys] at hclustered
          rw [keysOf_cons, List.map_cons]
          rcases next_spec h hwide hclustered with ⟨f, hnext, hfail⟩ |
            ⟨out, s', hnext, hmade, hcurrent, hgroupColumns, hcolumns, hstands⟩
          · rw [hfail]
            exact .fault hnext
          · have hlater : (keysOf s.groupColumns (others s.groupColumns row rest)).map
                (rowAt s.groupColumns s.columns (row :: rest)) =
                (keysOf s.groupColumns (others s.groupColumns row rest)).map
                  (rowAt s.groupColumns s.columns (others s.groupColumns row rest)) := by
              refine List.map_congr_left fun key hkey => rowAt_cons_of_ne ?_
              obtain ⟨r, hr, rfl⟩ := mem_keysOf.1 hkey
              simpa using (List.mem_filter.1 hr).2
            rw [hmade, hlater]
            refine .row (by rw [hnext]) (by rw [hnext]; exact hcurrent) ?_
            rw [hnext, ← hgroupColumns, ← hcolumns]
            rw [← hgroupColumns] at hstands hsub hwide hkeys
            refine ih _ ?_ hkeys hstands
              (fun r hr => hwide r (List.mem_cons_of_mem row (hsub.mem hr)))
              ((hsorted.sublist (List.sublist_cons_self row rest)).sublist hsub) rfl
            rw [← hlength, List.length_cons]
            exact Nat.lt_succ_of_le hsub.length_le

end GroupStream

namespace MergedRows

open ShardedSql.Group

/-- **The stream of some cursors in order offers the groups of all their rows in the order of their
keys.** -/
theorem streamGroups_offers {keys : List SortKey} (columns : List AggregateColumn)
    {cursors : List Cursor} (hfresh : ∀ c ∈ cursors, c = Cursor.ofRows c.labels c.rest)
    (hlabels : ∀ c ∈ cursors, ∀ row ∈ c.rest, row.length = c.labels.length)
    (hm : CursorQueue.Mergeable keys (cursors.map (·.rest))) :
    ∃ stream, streamGroups keys (keys.map (·.index)) columns cursors = .ok stream ∧
      stream.Offers (Group.inOrder keys columns (cursors.map (·.rest)).flatten) := by
  obtain ⟨hok, hread⟩ := CursorQueue.reading_start hfresh hm
  have hfits : ∀ c ∈ (CursorQueue.start keys cursors).2.cursors, c.Fits := by
    refine CursorQueue.forall_pullAll (fun _ => Cursor.Fits.advance) (fun c hc row hrow => ?_) _
    rw [hfresh c hc] at hrow
    exact hlabels c hc row hrow
  have hahead := hread.ahead hfits
  have hstart : CursorQueue.start keys cursors = (.ok (), (CursorQueue.start keys cursors).2) :=
    Prod.ext hok rfl
  generalize (CursorQueue.start keys cursors).2 = q at hstart hahead
  have hmem : ∀ row ∈ sortRows keys (cursors.map (·.rest)).flatten,
      ∀ i ∈ keys.map (·.index), i < row.length := by
    intro row hrow i hi
    obtain ⟨k, hk, rfl⟩ := List.mem_map.1 hi
    exact hm.wide row (List.mem_mergeSort.1 hrow) k hk
  have hsorted : (sortRows keys (cursors.map (·.rest)).flatten).Pairwise fun a b =>
      (kindOrderOf keys a b).isLE := by
    rw [sortRows_eq hm.unmixed]
    exact List.pairwise_mergeSort Sorting.isLE_trans Sorting.isLE_total _
  have hrowAt : rowAt (keys.map (·.index)) columns (sortRows keys (cursors.map (·.rest)).flatten) =
      rowAt (keys.map (·.index)) columns (cursors.map (·.rest)).flatten :=
    funext (rowAt_sortRows hm.unmixed)
  rw [Group.inOrder, ← keysOf_sortRows hm.unmixed, ← hrowAt]
  generalize sortRows keys (cursors.map (·.rest)).flatten = rows at hahead hmem hsorted
  obtain ⟨stream, hstream, hgroupColumns, hcolumns, hstands⟩ :=
    GroupStream.start_spec (keys.map (·.index)) columns hstart hahead
  refine ⟨.grouped stream, by rw [streamGroups, hstream], ?_⟩
  have hoffers := GroupStream.offers_of_stands hgroupColumns hstands
    (by rwa [hgroupColumns]) hsorted
  rw [hgroupColumns, hcolumns] at hoffers
  refine hoffers.map MergedRows.grouped (fun _ => rfl) fun s row hcurrent column => ?_
  rw [value, GroupStream.value, hcurrent]

end MergedRows

end ShardedSql
