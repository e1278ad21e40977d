/-
**A merge of cursors that do not fail gives rows.**

What comes out of a queue is known when the rows of each cursor are in order.  That something comes
out, and that it is all rows, needs no order: a cursor that does not fail is pulled without a fault,
and every move uses up one of the rows that are still to come.

Main definitions:

* `ShardedSql.Cursor.Serves` — no call on a cursor fails, and its rows have the columns that count.

Main results:

* `ShardedSql.CursorQueue.next_serves` — a queue of such cursors moves on without a fault;
* `ShardedSql.MergedRows.order_yields` — **it gives all rows, in some order**;
* `ShardedSql.MergedRows.ofCursors_yields` — **a statement without groups has merged rows**.
-/

import ShardedSql.Proofs.Grouping.Stream
import ShardedSql.Proofs.Merging.SingleRow
import ShardedSql.Proofs.Merging.Unread

set_option relaxedAutoImplicit false
set_option autoImplicit false

namespace ShardedSql

/-! ### Cursors -/

namespace Cursor

variable {keys : List SortKey} {c : Cursor}

/-- No call on the cursor fails, and its rows have the columns of some sort keys. -/
structure Serves (keys : List SortKey) (c : Cursor) : Prop where
  plan : c.plan = .none
  wide : ∀ row ∈ c.rest, ∀ k ∈ keys, k.index < row.length

theorem Serves.advance (h : c.Serves keys) : c.advance.2.Serves keys := by
  cases hrest : c.rest with
  | nil =>
      rw [advance_nil h.plan hrest]
      exact ⟨h.plan, h.wide⟩
  | cons row rest =>
      rw [advance_cons h.plan hrest]
      exact ⟨h.plan, fun r hr => h.wide r (hrest ▸ List.mem_cons_of_mem row hr)⟩

end Cursor

/-! ### Queues -/

namespace CursorQueue

variable {q : CursorQueue} {i : Nat} {keys : List SortKey}

theorem keys_pull (q : CursorQueue) (i : Nat) : (q.pull i).2.keys = q.keys := by
  unfold pull
  cases hget : q.cursors[i]? with
  | none => rfl
  | some c =>
      cases hadvance : c.advance.1 with
      | error f => simp [hadvance]
      | ok found =>
          cases found with
          | false => simp [hadvance]
          | true => cases hvalues : q.keys.mapM fun k => c.advance.2.cell k.index <;>
              simp [hadvance, hvalues]

theorem length_pull (q : CursorQueue) (i : Nat) :
    (q.pull i).2.cursors.length = q.cursors.length := by
  rcases pull_cases q i with hsame | ⟨c, -, hcursors, -⟩
  · rw [hsame]
  · rw [hcursors, List.length_set]

theorem keys_pullAll (q : CursorQueue) (idle : List Nat) : (q.pullAll idle).2.keys = q.keys := by
  induction idle generalizing q with
  | nil => rfl
  | cons i idle ih =>
      have hpull := keys_pull q i
      rw [pullAll]
      generalize q.pull i = p at hpull
      obtain ⟨x, q'⟩ := p
      cases x with
      | error f => exact hpull
      | ok _ => exact (ih q').trans hpull

theorem keys_pop (q : CursorQueue) : q.pop.2.keys = q.keys := by
  unfold pop
  split <;> rfl

theorem keys_next (q : CursorQueue) : q.next.2.keys = q.keys := by
  have hpull (i : Nat) := keys_pull { q with current := none } i
  rcases next_cases q with ⟨-, hnext⟩ | ⟨i, -, ⟨f, hnext⟩ | hnext⟩
  · rw [hnext, keys_pop]
  · rw [hnext, hpull]
  · rw [hnext, keys_pop, hpull]

/-- A cursor that serves is pulled without a fault. -/
theorem pull_serves (h : ∀ c ∈ q.cursors, c.Serves q.keys) (hi : i < q.cursors.length) :
    (q.pull i).1 = .ok () := by
  have hget : q.cursors[i]? = some q.cursors[i] := List.getElem?_eq_getElem hi
  generalize q.cursors[i] = c at hget
  obtain ⟨hplan, hwide⟩ := h c (List.mem_of_getElem? hget)
  cases hrest : c.rest with
  | nil => simp only [pull, hget, Cursor.advance_nil hplan hrest]
  | cons row rest =>
      have hvalues := Cursor.mapM_cell_eq_valuesOf q.keys
        (c := { c with nexts := c.nexts + 1, current := some row, rest := rest }) hplan rfl
        (hwide row (hrest ▸ List.mem_cons_self))
      simp only [pull, hget, Cursor.advance_cons hplan hrest, hvalues]

theorem pullAll_serves {idle : List Nat} (h : ∀ c ∈ q.cursors, c.Serves q.keys)
    (hidle : ∀ i ∈ idle, i < q.cursors.length) : (q.pullAll idle).1 = .ok () := by
  induction idle generalizing q with
  | nil => rfl
  | cons i idle ih =>
      have hok := pull_serves h (hidle i List.mem_cons_self)
      have hserves := forall_pull (fun _ => Cursor.Serves.advance) h i
      have hkeys := keys_pull q i
      have hlength := length_pull q i
      have hpair : q.pull i = (.ok (), (q.pull i).2) := Prod.ext hok rfl
      rw [pullAll, hpair]
      refine ih (hkeys ▸ hserves) fun j hj => ?_
      rw [hlength]
      exact hidle j (List.mem_cons_of_mem i hj)

/-- **A queue of cursors that serve moves on without a fault.** -/
theorem next_serves (h : ∀ c ∈ q.cursors, c.Serves q.keys)
    (hcurrent : ∀ i ∈ q.current, i < q.cursors.length) : ∃ found, q.next.1 = .ok found := by
  unfold next
  cases hi : q.current with
  | none => exact ⟨q.pop.1, rfl⟩
  | some i =>
      have hok : (pull { q with current := none } i).1 = .ok () :=
        pull_serves h (hcurrent i hi)
      have hpair : pull { q with current := none } i =
          (.ok (), (pull { q with current := none } i).2) := Prod.ext hok rfl
      simp only
      rw [hpair]
      exact ⟨_, rfl⟩

/-- The queue stands on the row that its current cursor stands on. -/
theorem standsOn_of_standing? (h : ∀ c ∈ q.cursors, c.Serves keys) {p : PhysicalRow}
    (hp : q.standing? = some p) :
    q.StandsOn p.values ∧ ∀ i ∈ q.current, i < q.cursors.length := by
  obtain ⟨i, hi, hat⟩ := Option.bind_eq_some_iff.1 hp
  obtain ⟨c, hget, hstanding⟩ := Option.bind_eq_some_iff.1 hat
  obtain ⟨row, hrow, rfl⟩ := Option.map_eq_some_iff.1 hstanding
  constructor
  · refine ⟨c, ?_, (h c (List.mem_of_getElem? hget)).plan, hrow⟩
    rw [cursor?, hi, Option.bind_some, hget]
  · intro j hj
    cases hi.symm.trans hj
    exact (List.getElem?_eq_some_iff.1 hget).1

/-- A queue of cursors that serve gives the rows that are still to come, in some order. -/
theorem exists_offering {log : List PhysicalCall} (h : ∀ c ∈ q.cursors, c.Serves q.keys)
    (hcurrent : ∀ i ∈ q.current, i < q.cursors.length)
    (hlined : Lined q q.current.toList log) :
    ∃ rows : List Row, Offering CursorQueue.next StandsOn q (rows.map .ok) ∧
      rows.Perm (q.unread.map (·.values)) := by
  -- every move uses up one of the rows that are still to come
  induction hn : q.unread.length using Nat.strong_induction_on generalizing q log with
  | _ n ih =>
      obtain ⟨found, hnext⟩ := next_serves h hcurrent
      have hpair : q.next = (.ok found, q.next.2) := Prod.ext hnext rfl
      have hmoved := hlined.next
      rw [hpair] at hmoved
      cases found with
      | false => exact ⟨[], .done hnext, by rw [hmoved.1]; exact .refl _⟩
      | true =>
          obtain ⟨p, hstanding, hperm, hlined'⟩ := hmoved
          have hserves := forall_next (fun _ => Cursor.Serves.advance) h
          obtain ⟨hstands, hcurrent'⟩ := standsOn_of_standing? hserves hstanding
          have hlength := hperm.length_eq
          rw [List.length_cons] at hlength
          obtain ⟨rows, hoffers, hrows⟩ :=
            ih _ (by omega) (keys_next q ▸ hserves) hcurrent' hlined' rfl
          refine ⟨p.values :: rows, .row hnext hstands hoffers, ?_⟩
          exact (hrows.cons p.values).trans (hperm.map PhysicalRow.values).symm

end CursorQueue

/-! ### Merged rows -/

theorem Cursor.map_values_unread (cursors : List Cursor) :
    (cursors.flatMap Cursor.unread).map PhysicalRow.values = (cursors.map (·.rest)).flatten := by
  induction cursors with
  | nil => rfl
  | cons c cursors ih =>
      rw [List.flatMap_cons, List.map_append, ih, List.map_cons, List.flatten_cons, unread,
        List.map_map]
      exact congrArg (· ++ _) (List.map_id c.rest)

/-- A sort key has one of the columns of the labels. -/
theorem SortKey.index_lt {s : Select} {labels : List String} {items : List OrderItem}
    {keys : List SortKey} (h : ofItems s labels items = .ok keys) :
    ∀ k ∈ keys, k.index < labels.length := by
  intro k hk
  obtain ⟨i, -, hi⟩ := Outcome.exists_of_mem_right h hk
  obtain ⟨index, hindex, hkey⟩ := Outcome.bind_eq_ok.1 hi
  cases hkey
  unfold indexOf at hindex
  cases hpos : i.key with
  | position n =>
      simp only [hpos] at hindex
      split at hindex
      · cases hindex
      · cases hindex
        simp only
        omega
  | column owner name =>
      simp only [hpos] at hindex
      exact (Cursor.indexIn_eq_ok.1 hindex).1.lt_length

namespace MergedRows

variable {keys : List SortKey} {cursors : List Cursor}

/-- **Cursors that serve are merged in some order of all their rows.** -/
theorem order_yields (h : ∀ c ∈ cursors, c.Serves keys) :
    ∃ m rows, order keys cursors = .ok m ∧ m.Yields rows ∧
      rows.Perm (cursors.map (·.rest)).flatten := by
  have hok : (CursorQueue.start keys cursors).1 = .ok () :=
    CursorQueue.pullAll_serves h fun i hi => List.mem_range.1 hi
  have hserves : ∀ c ∈ (CursorQueue.start keys cursors).2.cursors, c.Serves keys :=
    CursorQueue.forall_pullAll (fun _ => Cursor.Serves.advance) h _
  have hkeys : (CursorQueue.start keys cursors).2.keys = keys := CursorQueue.keys_pullAll _ _
  obtain ⟨hlined, hperm, hcurrent⟩ := CursorQueue.lined_start hok
  have hnone : ∀ i ∈ (CursorQueue.start keys cursors).2.current,
      i < (CursorQueue.start keys cursors).2.cursors.length := by simp [hcurrent]
  obtain ⟨rows, hoffers, hrows⟩ :=
    CursorQueue.exists_offering (hkeys.symm ▸ hserves) hnone (by rw [hcurrent]; exact hlined)
  refine ⟨_, rows, order_of_start hok, ?_, ?_⟩
  · exact hoffers.map MergedRows.ordered (fun _ => rfl) fun _ _ h column => h.value_eq column
  · rw [← Cursor.map_values_unread]
    exact hrows.trans (hperm.map PhysicalRow.values)

theorem inOrder_yields_perm (h : ∀ c ∈ cursors, c.Serves keys) :
    ∃ m rows, inOrder keys cursors = .ok m ∧ m.Yields rows ∧
      rows.Perm (cursors.map (·.rest)).flatten := by
  unfold inOrder
  split
  · have hchained := yields_chained cursors 0 fun c hc => (h c hc).plan
    exact ⟨_, _, rfl, hchained, by rw [leftFrom, List.drop_zero, List.flatMap_def]⟩
  · exact order_yields h

/-- Groups without aggregations are made of cursors whose rows have the columns that count. -/
theorem holdGroups_yields (keys : List SortKey) (groupColumns : List Nat)
    (hplan : ∀ c ∈ cursors, c.plan = .none)
    (hwide : ∀ c ∈ cursors, ∀ row ∈ c.rest, row.length = c.labels.length)
    (hgroups : ∀ row ∈ (cursors.map (·.rest)).flatten, ∀ i ∈ groupColumns, i < row.length)
    (hkeys : ∀ row ∈ (cursors.map (·.rest)).flatten, ∀ k ∈ keys, k.index < row.length) :
    ∃ m rows, holdGroups keys groupColumns [] cursors = .ok m ∧ m.Yields rows ∧
      rows.length ≤ (cursors.map (·.rest)).flatten.length := by
  -- the row of a group is its first one
  have hrow : ∀ key ∈ Group.keysOf groupColumns (cursors.map (·.rest)).flatten, ∃ row,
      Group.rowAt groupColumns [] (cursors.map (·.rest)).flatten key = .ok row ∧
        row ∈ (cursors.map (·.rest)).flatten := by
    intro key hkey
    obtain ⟨row, hrow⟩ : ∃ row,
        Group.rowAt groupColumns [] (cursors.map (·.rest)).flatten key = .ok row :=
      Group.exists_rowAt key (by simp) (by simp) (by simp)
    obtain ⟨g, hg, hfinish⟩ := Outcome.bind_eq_ok.1 hrow
    cases hfinish
    exact ⟨g.first, hrow, (Group.first_of_atKey hkey hg).1⟩
  obtain ⟨made, hmade, hmem⟩ := Outcome.exists_mapM_eq_ok hrow
  have hcount : ∀ row ∈ made, ∀ k ∈ keys, k.index < row.length := by
    intro row hmaderow
    obtain ⟨_, _, hrow⟩ := Lists.exists_of_forall₂_right hmem hmaderow
    exact hkeys row hrow
  have hrows := (Group.ofCursors_eq_ok hplan hwide).2 ⟨hgroups, made, hmade, hcount, rfl⟩
  refine ⟨_, _, holdGroups_eq_ok.2 ⟨_, hrows, rfl⟩, yields_held _ none _, ?_⟩
  have hkeysOf := (Lists.eraseDups_sublist
    ((cursors.map (·.rest)).flatten.map (Group.keyOf groupColumns))).length_le
  rw [← Group.keysOf, hmem.length_eq, List.length_map] at hkeysOf
  rw [(Group.sortKeyed_perm keys _).length_eq, List.length_map, List.length_map]
  exact hkeysOf

end MergedRows

/-! ### Statements -/

/-- A cursor on which no call fails, before its rows, which are as wide as some labels. -/
structure Cursor.IsTable (labels : List String) (c : Cursor) : Prop where
  fresh : c = Cursor.ofRows c.labels c.rest
  length_labels : c.labels.length = labels.length
  wide : ∀ row ∈ c.rest, row.length = labels.length

namespace MergedRows

/-- **A statement without groups has merged rows**, which are all rows in some order unless equal
rows are returned once. -/
theorem ofCursors_yields {s : Select} {labels : List String} {keys : List SortKey}
    {cursors : List Cursor} (hgroups : s.groupBy = []) (haggregation : s.hasAggregation = false)
    (hkeys : SortKey.ofItems s labels s.order = .ok keys)
    (hcursors : ∀ c ∈ cursors, c.IsTable labels) :
    ∃ m rows, ofCursors s labels cursors = .ok m ∧ m.Yields rows ∧
      rows.length ≤ (cursors.map (·.rest)).flatten.length ∧
      (s.projections.distinctRows = false → rows.Perm (cursors.map (·.rest)).flatten) := by
  have hplan : ∀ c ∈ cursors, c.plan = .none := fun c hc =>
    Cursor.plan_of_eq_ofRows (hcursors c hc).fresh
  cases hdistinct : s.projections.distinctRows with
  | false =>
      have hserves : ∀ c ∈ cursors, c.Serves keys := fun c hc =>
        ⟨hplan c hc, fun row hrow k hk =>
          (hcursors c hc).wide row hrow ▸ SortKey.index_lt hkeys k hk⟩
      obtain ⟨m, rows, hm, hyields, hperm⟩ := inOrder_yields_perm hserves
      exact ⟨m, rows, (ofCursors_eq_inOrder cursors hgroups haggregation hdistinct hkeys).trans hm,
        hyields, Nat.le_of_eq hperm.length_eq, fun _ => hperm⟩
  | true =>
      have hlength : ∀ row ∈ (cursors.map (·.rest)).flatten, row.length = labels.length := by
        intro row hrow
        obtain ⟨l, hl, hrow⟩ := List.mem_flatten.1 hrow
        obtain ⟨c, hc, rfl⟩ := List.mem_map.1 hl
        exact (hcursors c hc).wide row hrow
      have hwide : ∀ c ∈ cursors, ∀ row ∈ c.rest, row.length = c.labels.length :=
        fun c hc row hrow =>
          ((hcursors c hc).wide row hrow).trans (hcursors c hc).length_labels.symm
      obtain ⟨m, rows, hm, hyields, hfew⟩ := holdGroups_yields keys (List.range labels.length)
        hplan hwide
        (fun row hrow i hi => hlength row hrow ▸ List.mem_range.1 hi)
        fun row hrow k hk => hlength row hrow ▸ SortKey.index_lt hkeys k hk
      refine ⟨m, rows, ?_, hyields, hfew, fun h => by cases h⟩
      rw [← hm]
      simp only [ofCursors, hkeys, hgroups, haggregation, hdistinct]
      rfl

end MergedRows

end ShardedSql
