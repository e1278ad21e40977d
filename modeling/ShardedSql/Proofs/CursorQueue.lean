/-
**Merging cursors that are in order is sorting their rows.**

What is left of each cursor is a list of rows.  A cursor waits with the first of these rows, and the
cursor of the current row waits again only when the next row is asked for.  The invariant says so of
every cursor, the idle ones apart: those that do not wait although they may have rows.  At the start
all cursors are idle, and between two rows the cursor of the current row is.

The cursor that is taken from the heap has the first of the smallest rows, and so the row with which
the stable sort of what is left begins.

Main definitions:

* `ShardedSql.CursorQueue.Holds` — **the invariant**: a queue with some rows left in each cursor;
* `ShardedSql.CursorQueue.StandsOn` — the row that a queue stands on;
* `ShardedSql.MergedRows.after` — merged rows after moving on a number of times.

Main results:

* `ShardedSql.CursorQueue.holds_pull`, `ShardedSql.CursorQueue.holds_pop` — each step keeps it;
* `ShardedSql.CursorQueue.next_spec` — moving on gives the first row of the sort of what is left;
* `ShardedSql.MergedRows.order_spec` — **the rows come as a stable sort puts them, each once**.
-/

import ShardedSql.Merged.OfCursors
import ShardedSql.Proofs.Heap.Agreement
import ShardedSql.Proofs.Lists
import ShardedSql.Proofs.SortKey
import ShardedSql.Proofs.Sorting.Stable

set_option relaxedAutoImplicit false
set_option autoImplicit false

namespace ShardedSql

open SortKey

/-! ### Cursors on which no call fails -/

namespace Cursor

variable {c : Cursor}

theorem plan_of_eq_ofRows {labels : List String} {rows : List Row} (h : c = ofRows labels rows) :
    c.plan = .none := by
  rw [h]
  rfl

theorem advance_nil (hplan : c.plan = .none) (hrest : c.rest = []) :
    c.advance = (.ok false, { c with nexts := c.nexts + 1, current := none }) := by
  simp [advance, next, hplan, FaultPlan.none, hrest, Except.mapError]

theorem advance_cons {row : Row} {rest : List Row} (hplan : c.plan = .none)
    (hrest : c.rest = row :: rest) :
    c.advance = (.ok true, { c with nexts := c.nexts + 1, current := some row, rest := rest }) := by
  simp [advance, next, hplan, FaultPlan.none, hrest, Except.mapError]

/-- A cell is the value of the row that the cursor stands on, and if there is none then the fault
says so as a fault of merging. -/
theorem cell_eq_rowValue {row : Row} (hplan : c.plan = .none) (hcurrent : c.current = some row)
    (column : Nat) : c.cell column = rowValue row column := by
  rw [cell, value, hplan, hcurrent]
  simp only [FaultPlan.none, rowValue]
  cases row[column]? <;> rfl

/-- The cells of all sort keys are the values of the row that count. -/
theorem mapM_cell_eq_valuesOf (keys : List SortKey) {row : Row} (hplan : c.plan = .none)
    (hcurrent : c.current = some row) (hwide : ∀ k ∈ keys, k.index < row.length) :
    (keys.mapM fun k => c.cell k.index) = .ok (valuesOf keys row) := by
  induction keys with
  | nil => rfl
  | cons k keys ih =>
      have hk := hwide k (List.mem_cons_self ..)
      have hcell : c.cell k.index = .ok (row.getD k.index .null) := by
        rw [cell_eq_rowValue hplan hcurrent, rowValue, List.getD_eq_getElem?_getD,
          List.getElem?_eq_getElem hk, Option.getD_some]
      rw [List.mapM_cons, hcell, ih fun k' hk' => hwide k' (List.mem_cons_of_mem k hk')]
      rfl

end Cursor

namespace CursorQueue

/-! ### The order of cursors that wait -/

/-- The order of two cursors that wait, integers before floating point. -/
def kindOrder (keys : List SortKey) : Waiting → Waiting → Ordering :=
  compareLex (fun a b => kindOrderRows keys a.values b.values) (compareOn (·.cursor))

instance transCmp_kindOrder (keys : List SortKey) : Std.TransCmp (kindOrder keys) := by
  have hrows := transCmp_comap (kindOrderRows keys) Waiting.values
  unfold kindOrder
  infer_instance

/-- One of two cursors that wait has no larger row than the other, integers before floating
point. -/
def kindBefore (keys : List SortKey) (a b : Waiting) : Bool := (kindOrder keys a b).isLE

theorem kindBefore_total (keys : List SortKey) (a b : Waiting) :
    kindBefore keys a b = true ∨ kindBefore keys b a = true := by
  have htotal : (kindBefore keys a b || kindBefore keys b a) = true := Sorting.isLE_total a b
  rwa [Bool.or_eq_true] at htotal

theorem kindBefore_trans (keys : List SortKey) (a b c : Waiting)
    (hab : kindBefore keys a b = true) (hbc : kindBefore keys b c = true) :
    kindBefore keys a c = true := Std.TransCmp.isLE_trans hab hbc

/-- A cursor waits with the values of one of some rows. -/
def Waiting.IsOf (keys : List SortKey) (rows : List Row) (w : Waiting) : Prop :=
  ∃ row ∈ rows, w.values = valuesOf keys row

/-- Cursors that wait with rows whose columns do not mix numbers are in the order by kind. -/
theorem before_eq_kindBefore {keys : List SortKey} {rows : List Row} (h : Unmixed keys rows)
    {a b : Waiting} (ha : Waiting.IsOf keys rows a) (hb : Waiting.IsOf keys rows b) :
    before keys a b = kindBefore keys a b := by
  obtain ⟨ra, hra, hva⟩ := ha
  obtain ⟨rb, hrb, hvb⟩ := hb
  have horder := orderOf_eq h hra hrb
  rw [SortKey.orderOf, ← hva, ← hvb] at horder
  simp only [before, order, kindBefore, kindOrder, compareLex, compareOn, horder]

/-! ### The invariant -/

/-- Lists of rows that can be merged: they are each in order, every row has the columns that count,
and no such column mixes integers with floating point. -/
structure Mergeable (keys : List SortKey) (left : List (List Row)) : Prop where
  sorted : ∀ l ∈ left, l.Pairwise fun a b => (orderOf keys a b).isLE
  wide : ∀ row ∈ left.flatten, ∀ k ∈ keys, k.index < row.length
  unmixed : Unmixed keys left.flatten

/-- Cursors with some rows left in each, of which those that are not idle stand on their first
row. -/
structure Standing (cursors : List Cursor) (left : List (List Row)) (idle : List Nat) : Prop where
  length : cursors.length = left.length
  faultless : ∀ c ∈ cursors, c.plan = .none
  /-- What is left of an idle cursor was not reached yet. -/
  resting : ∀ i ∈ idle, ∀ c, cursors[i]? = some c → left[i]? = some c.rest
  /-- Another cursor stands on the first row that is left, unless none is. -/
  ready : ∀ i ∉ idle, ∀ c, cursors[i]? = some c →
    left[i]? = some (c.current.toList ++ c.rest) ∧ (c.current = none → c.rest = [])

/-- A queue with some rows left in each of its cursors, of which those that are not idle wait with
their first row. -/
structure Holds (q : CursorQueue) (left : List (List Row)) (idle : List Nat) : Prop where
  standing : Standing q.cursors left idle
  isHeap : q.waiting.IsHeap (kindBefore q.keys)
  nodup : q.waiting.toList.Nodup
  /-- The cursors that wait are those that are not idle and have a row. -/
  mem_waiting : ∀ w, w ∈ q.waiting.toList ↔ w.cursor ∉ idle ∧
    ∃ row rest, left[w.cursor]? = some (row :: rest) ∧ w.values = valuesOf q.keys row

variable {cursors : List Cursor} {q : CursorQueue} {left : List (List Row)} {idle : List Nat}
  {i : Nat}

/-- An idle cursor that moves to its first row is idle no longer. -/
theorem Standing.set (h : Standing cursors left (i :: idle)) (hidle : i ∉ idle) {c : Cursor}
    (hplan : c.plan = .none) (hleft : left[i]? = some (c.current.toList ++ c.rest))
    (hnone : c.current = none → c.rest = []) : Standing (cursors.set i c) left idle where
  length := by rw [List.length_set, h.length]
  faultless := fun d hd => by
    rcases List.mem_or_eq_of_mem_set hd with hd | rfl
    · exact h.faultless d hd
    · exact hplan
  resting := fun j hj d hd => by
    have hij : i ≠ j := fun he => hidle (he ▸ hj)
    rw [List.getElem?_set_ne hij] at hd
    exact h.resting j (List.mem_cons_of_mem i hj) d hd
  ready := fun j hj d hd => by
    by_cases hij : i = j
    · subst hij
      obtain ⟨hlt, -⟩ := List.getElem?_eq_some_iff.1 hd
      rw [List.length_set] at hlt
      rw [List.getElem?_set_self hlt, Option.some.injEq] at hd
      subst hd
      exact ⟨hleft, hnone⟩
    · rw [List.getElem?_set_ne hij] at hd
      exact h.ready j (by simp [hj, Ne.symm hij]) d hd

/-- A cursor that is not idle and has rows left stands on the first of them. -/
theorem Standing.exists_cursor (h : Standing cursors left idle) (hi : i ∉ idle) {row : Row}
    {rest : List Row} (hget : left[i]? = some (row :: rest)) :
    ∃ c, cursors[i]? = some c ∧ c.current = some row ∧ c.rest = rest := by
  obtain ⟨hlt, -⟩ := List.getElem?_eq_some_iff.1 hget
  rw [← h.length] at hlt
  have hc := List.getElem?_eq_getElem hlt
  obtain ⟨hleft, hnone⟩ := h.ready i hi _ hc
  refine ⟨cursors[i], hc, ?_⟩
  rw [hget, Option.some.injEq] at hleft
  cases hcur : cursors[i].current with
  | none => simp [hcur, hnone hcur] at hleft
  | some r =>
      rw [hcur, Option.toList_some, List.singleton_append, List.cons.injEq] at hleft
      exact ⟨by rw [hleft.1], hleft.2.symm⟩

/-- When the first row of a cursor is used up the cursor is idle. -/
theorem Standing.setIdle (h : Standing cursors left []) {c : Cursor} (hget : cursors[i]? = some c) :
    Standing cursors (left.set i c.rest) [i] where
  length := by rw [List.length_set, h.length]
  faultless := h.faultless
  resting := fun j hj d hd => by
    cases List.mem_singleton.1 hj
    obtain ⟨hlt, -⟩ := List.getElem?_eq_some_iff.1 hd
    rw [h.length] at hlt
    rw [hget, Option.some.injEq] at hd
    rw [List.getElem?_set_self hlt, hd]
  ready := fun j hj d hd => by
    rw [List.getElem?_set_ne fun he => hj (List.mem_singleton.2 he.symm)]
    exact h.ready j (by simp) d hd

/-- The cursors that wait do so with rows that are left. -/
theorem Holds.isOf (h : Holds q left idle) {w : Waiting} (hw : w ∈ q.waiting.toList) :
    Waiting.IsOf q.keys left.flatten w := by
  obtain ⟨-, row, rest, hget, hvalues⟩ := (h.mem_waiting w).1 hw
  exact ⟨row, Lists.mem_flatten_of_getElem? hget (List.mem_cons_self ..), hvalues⟩

/-- **A cursor that is pulled waits with its next row.** -/
theorem holds_pull (h : Holds q left (i :: idle)) (hi : i < left.length) (hidle : i ∉ idle)
    (hm : Mergeable q.keys left) :
    (q.pull i).1 = .ok () ∧ Holds (q.pull i).2 left idle ∧ (q.pull i).2.keys = q.keys ∧
      (q.pull i).2.current = q.current := by
  have hlt : i < q.cursors.length := by rw [h.standing.length]; exact hi
  have hget : q.cursors[i]? = some q.cursors[i] := List.getElem?_eq_getElem hlt
  generalize q.cursors[i] = c at hget
  have hplan := h.standing.faultless c (List.mem_of_getElem? hget)
  have hrest := h.standing.resting i (List.mem_cons_self ..) c hget
  cases hr : c.rest with
  | nil =>
      -- there is no next row, so that the cursor does not wait
      have hpull : q.pull i = (.ok (), { q with
          cursors := q.cursors.set i { c with nexts := c.nexts + 1, current := none } }) := by
        simp only [pull, hget, Cursor.advance_nil hplan hr]
      rw [hr] at hrest
      rw [hpull]
      refine ⟨rfl, ⟨h.standing.set hidle hplan (by simp [hrest, hr]) fun _ => hr, h.isHeap, h.nodup,
        fun w => ?_⟩, rfl, rfl⟩
      rw [h.mem_waiting]
      refine and_congr_left fun ⟨row, rest, hw, _⟩ => ?_
      have hne : w.cursor ≠ i := fun he => by simp [he, hrest] at hw
      simp [hne]
  | cons row rest =>
      have hrow : row ∈ left.flatten := Lists.mem_flatten_of_getElem? hrest (by simp [hr])
      have hvalues := Cursor.mapM_cell_eq_valuesOf q.keys
        (c := { c with nexts := c.nexts + 1, current := some row, rest := rest }) hplan rfl
        (hm.wide row hrow)
      have hpull : q.pull i = (.ok (), { q with
          cursors := q.cursors.set i
            { c with nexts := c.nexts + 1, current := some row, rest := rest }
          waiting := q.waiting.push (before q.keys) ⟨valuesOf q.keys row, i⟩ }) := by
        simp only [pull, hget, Cursor.advance_cons hplan hr, hvalues]
      -- only rows that are left are compared, and on these the two orders agree
      have hcongr : q.waiting.push (before q.keys) ⟨valuesOf q.keys row, i⟩ =
          q.waiting.push (kindBefore q.keys) ⟨valuesOf q.keys row, i⟩ :=
        Heap.push_congr fun w hw =>
          before_eq_kindBefore hm.unmixed (h.isOf hw) ⟨row, hrow, rfl⟩
      have hperm := Heap.push_perm (kindBefore q.keys) ⟨valuesOf q.keys row, i⟩ q.waiting
      rw [hr] at hrest
      rw [hpull, hcongr]
      refine ⟨rfl, ⟨h.standing.set hidle hplan hrest (by simp), ?_, ?_, fun w => ?_⟩, rfl, rfl⟩
      · exact Heap.isHeap_push (kindBefore_total _) (kindBefore_trans _) _ h.isHeap
      · refine hperm.nodup_iff.2 (List.nodup_cons.2 ⟨fun hmem => ?_, h.nodup⟩)
        exact ((h.mem_waiting _).1 hmem).1 (List.mem_cons_self ..)
      · rw [hperm.mem_iff, List.mem_cons, h.mem_waiting]
        constructor
        · rintro (rfl | ⟨hw, hrow⟩)
          · exact ⟨hidle, row, rest, hrest, rfl⟩
          · exact ⟨fun hmem => hw (List.mem_cons_of_mem i hmem), hrow⟩
        · rintro ⟨hw, row', rest', hw', hvalues'⟩
          -- what the pulled cursor has left begins with the row that was pushed
          by_cases hwi : w.cursor = i
          · left
            rw [hwi, hrest] at hw'
            cases hw'
            obtain ⟨values, cursor⟩ := w
            simp only at hwi hvalues'
            rw [hwi, hvalues']
          · exact .inr ⟨by simp [hwi, hw], row', rest', hw', hvalues'⟩

/-- Among the cursors that wait each has its number once. -/
theorem Holds.eq_of_cursor_eq (h : Holds q left idle) {a b : Waiting} (ha : a ∈ q.waiting.toList)
    (hb : b ∈ q.waiting.toList) (hab : a.cursor = b.cursor) : a = b := by
  obtain ⟨-, row, rest, hget, hvalues⟩ := (h.mem_waiting a).1 ha
  obtain ⟨-, row', rest', hget', hvalues'⟩ := (h.mem_waiting b).1 hb
  rw [hab, hget'] at hget
  cases hget
  obtain ⟨values, cursor⟩ := a
  obtain ⟨values', cursor'⟩ := b
  simp only at hab hvalues hvalues'
  rw [hab, hvalues, hvalues']

/-- Pulling every idle cursor leaves none idle. -/
theorem holds_pullAll (hnodup : idle.Nodup) (h : Holds q left idle)
    (hidle : ∀ i ∈ idle, i < left.length) (hm : Mergeable q.keys left) :
    (q.pullAll idle).1 = .ok () ∧ Holds (q.pullAll idle).2 left [] ∧
      (q.pullAll idle).2.keys = q.keys ∧ (q.pullAll idle).2.current = q.current := by
  induction idle generalizing q with
  | nil => exact ⟨rfl, h, rfl, rfl⟩
  | cons i idle ih =>
      obtain ⟨hi, hnodup⟩ := List.nodup_cons.1 hnodup
      obtain ⟨hok, hpull, hkeys, hcurrent⟩ :=
        holds_pull h (hidle i (List.mem_cons_self ..)) hi hm
      rw [pullAll]
      generalize q.pull i = p at hok hpull hkeys hcurrent
      obtain ⟨x, q'⟩ := p
      simp only at hok hpull hkeys hcurrent
      subst hok
      rw [← hkeys, ← hcurrent]
      exact ih hnodup hpull (fun j hj => hidle j (List.mem_cons_of_mem i hj)) (hkeys ▸ hm)

/-- A queue in which no cursor is idle and none waits has no rows left. -/
theorem Holds.flatten_eq_nil (h : Holds q left []) (hempty : q.waiting = .empty) :
    left.flatten = [] := by
  rw [List.flatten_eq_nil_iff]
  intro l hl
  obtain ⟨i, hi⟩ := List.mem_iff_getElem?.1 hl
  cases l with
  | nil => rfl
  | cons row rest =>
      have hmem : (⟨valuesOf q.keys row, i⟩ : Waiting) ∈ q.waiting.toList :=
        (h.mem_waiting _).2 ⟨by simp, row, rest, hi, rfl⟩
      rw [hempty] at hmem
      cases hmem

/-- A cursor that is popped is idle, and its row is not left any longer. -/
theorem Holds.popped (h : Holds q left []) {w : Waiting} {rest : Heap Waiting}
    (hp : q.waiting.pop (kindBefore q.keys) = some (w, rest)) {c : Cursor}
    (hget : q.cursors[w.cursor]? = some c) :
    Holds { q with waiting := rest, current := some w.cursor } (left.set w.cursor c.rest)
      [w.cursor] := by
  have hperm := Heap.pop_perm hp
  have hw : w ∈ q.waiting.toList := hperm.mem_iff.2 (List.mem_cons_self ..)
  obtain ⟨hnot, hnodup⟩ := List.nodup_cons.1 (hperm.nodup_iff.1 h.nodup)
  refine ⟨h.standing.setIdle hget, ?_, hnodup, fun v => ?_⟩
  · exact Heap.isHeap_pop (kindBefore_total _) (kindBefore_trans _) h.isHeap hp
  · rw [List.mem_singleton]
    constructor
    · intro hv
      have hold : v ∈ q.waiting.toList := hperm.mem_iff.2 (List.mem_cons_of_mem w hv)
      -- each cursor waits once, so that the one that was taken away does not wait any longer
      have hne : v.cursor ≠ w.cursor := fun he => by
        cases h.eq_of_cursor_eq hold hw he
        exact hnot hv
      obtain ⟨-, hrow⟩ := (h.mem_waiting v).1 hold
      refine ⟨hne, ?_⟩
      rwa [List.getElem?_set_ne hne.symm]
    · rintro ⟨hne, hrow⟩
      rw [List.getElem?_set_ne (Ne.symm hne)] at hrow
      have hold : v ∈ q.waiting.toList := (h.mem_waiting v).2 ⟨by simp, hrow⟩
      rcases List.mem_cons.1 (hperm.mem_iff.1 hold) with rfl | hv
      · exact absurd rfl hne
      · exact hv

/-- Without its first row a list of rows can still be merged with the others. -/
theorem Mergeable.set {keys : List SortKey} (hm : Mergeable keys left) {row : Row}
    {rest : List Row} (hget : left[i]? = some (row :: rest)) :
    Mergeable keys (left.set i rest) := by
  have hmem : ∀ r ∈ (left.set i rest).flatten, r ∈ left.flatten := by
    intro r hr
    obtain ⟨l, hl, hrl⟩ := List.mem_flatten.1 hr
    rcases List.mem_or_eq_of_mem_set hl with hl | rfl
    · exact List.mem_flatten.2 ⟨l, hl, hrl⟩
    · exact Lists.mem_flatten_of_getElem? hget (List.mem_cons_of_mem row hrl)
  refine ⟨fun l hl => ?_, fun r hr => hm.wide r (hmem r hr), fun k hk a ha b hb =>
    hm.unmixed k hk a (hmem a ha) b (hmem b hb)⟩
  rcases List.mem_or_eq_of_mem_set hl with hl | rfl
  · exact hm.sorted l hl
  · exact (hm.sorted _ (List.mem_of_getElem? hget)).of_cons

/-- Lists that can be merged are in the order by kind. -/
theorem Mergeable.kindSorted {keys : List SortKey} (hm : Mergeable keys left) :
    ∀ l ∈ left, l.Pairwise fun a b => (kindOrderOf keys a b).isLE := by
  intro l hl
  refine (hm.sorted l hl).imp_of_mem fun {a b} ha hb hab => ?_
  rwa [orderOf_eq hm.unmixed (List.mem_flatten.2 ⟨l, hl, ha⟩)
    (List.mem_flatten.2 ⟨l, hl, hb⟩)] at hab

/-- **The cursor that is popped stands on the first row of the sort of what is left.** -/
theorem holds_pop (h : Holds q left []) (hm : Mergeable q.keys left) :
    (left.flatten = [] ∧ q.pop = (false, q)) ∨
      ∃ i c row, q.cursors[i]? = some c ∧ c.current = some row ∧
        left[i]? = some (row :: c.rest) ∧
        q.pop = (true, { q with waiting := q.pop.2.waiting, current := some i }) ∧
        Holds q.pop.2 (left.set i c.rest) [i] ∧
        sortRows q.keys left.flatten = row :: sortRows q.keys (left.set i c.rest).flatten := by
  have hcongr : q.waiting.pop (before q.keys) = q.waiting.pop (kindBefore q.keys) :=
    Heap.pop_congr fun a ha b hb => before_eq_kindBefore hm.unmixed (h.isOf ha) (h.isOf hb)
  cases hp : q.waiting.pop (before q.keys) with
  | none => exact .inl ⟨h.flatten_eq_nil (Heap.pop_eq_none_iff.1 hp), by rw [pop, hp]⟩
  | some p =>
      obtain ⟨w, rest⟩ := p
      have hpop : q.pop = (true, { q with waiting := rest, current := some w.cursor }) := by
        rw [pop, hp]
      rw [hcongr] at hp
      have hperm := Heap.pop_perm hp
      obtain ⟨-, row, tail, hget, hvalues⟩ :=
        (h.mem_waiting w).1 (hperm.mem_iff.2 (List.mem_cons_self ..))
      obtain ⟨c, hc, hcurrent, rfl⟩ := h.standing.exists_cursor (by simp) hget
      refine .inr ⟨w.cursor, c, row, hc, hcurrent, hget, by rw [hpop], ?_, ?_⟩
      · rw [hpop]
        exact h.popped hp hc
      · rw [sortRows_eq hm.unmixed, sortRows_eq (hm.set hget).unmixed]
        -- another cursor that has a row waits with it, and the heap did not take that one
        refine Sorting.mergeSort_flatten hget hm.kindSorted fun j head tail hj hne => ?_
        have hwaits : (⟨valuesOf q.keys head, j⟩ : Waiting) ∈ q.waiting.toList :=
          (h.mem_waiting _).2 ⟨by simp, head, tail, hj, rfl⟩
        rcases List.mem_cons.1 (hperm.mem_iff.1 hwaits) with rfl | hrest
        · exact absurd rfl hne
        · have hle := Heap.le_of_pop h.isHeap hp hrest
          rwa [kindBefore, kindOrder, compareLex, compareOn, hvalues] at hle

/-! ### Moving on -/

/-- A queue from which rows are read: the cursor of the current row is idle, the others wait, and
what is left can be merged. -/
structure Reading (keys : List SortKey) (q : CursorQueue) (left : List (List Row)) : Prop where
  keys_eq : q.keys = keys
  holds : Holds q left q.current.toList
  current_lt : ∀ i ∈ q.current, i < left.length
  mergeable : Mergeable keys left

variable {keys : List SortKey}

/-- The queue stands on a row: the cursor of the current row does, and no call on it fails. -/
def StandsOn (q : CursorQueue) (row : Row) : Prop :=
  ∃ c, q.cursor? = .ok c ∧ c.plan = .none ∧ c.current = some row

theorem StandsOn.value_eq {row : Row} (h : q.StandsOn row) (column : Nat) :
    q.value column = rowValue row column := by
  obtain ⟨c, hc, hplan, hrow⟩ := h
  rw [value, hc, ← Cursor.cell_eq_rowValue hplan hrow]
  rfl

/-- What popping does to a queue in which no cursor is idle. -/
theorem pop_spec (hkeys : q.keys = keys) (h : Holds q left []) (hm : Mergeable keys left)
    (hcurrent : q.current = none) :
    (left.flatten = [] ∧ q.pop.1 = false ∧ Reading keys q.pop.2 left) ∨
      ∃ row left', q.pop.1 = true ∧ q.pop.2.StandsOn row ∧ Reading keys q.pop.2 left' ∧
        sortRows keys left.flatten = row :: sortRows keys left'.flatten := by
  subst hkeys
  rcases holds_pop h hm with ⟨hnil, hpop⟩ | ⟨i, c, row, hc, hrow, hget, hpop, hholds, hsort⟩
  · rw [hpop]
    refine .inl ⟨hnil, rfl, rfl, ?_, by simp [hcurrent], hm⟩
    rwa [hcurrent]
  · refine .inr ⟨row, left.set i c.rest, ?_, ?_, ?_, hsort⟩
    · rw [hpop]
    · have hcursor : q.pop.2.cursor? = .ok c := by
        rw [hpop, cursor?, Option.bind_some, hc]
      exact ⟨c, hcursor, h.standing.faultless c (List.mem_of_getElem? hc), hrow⟩
    · have hlt : i < left.length := (List.getElem?_eq_some_iff.1 hget).1
      have hcur : q.pop.2.current = some i := by rw [hpop]
      refine ⟨by rw [hpop], ?_, ?_, hm.set hget⟩
      · rwa [hcur]
      · simpa [hcur] using hlt

/-- **Moving on gives the first row of the sort of what is left, unless nothing is.** -/
theorem next_spec (h : Reading keys q left) :
    (left.flatten = [] ∧ q.next.1 = .ok false ∧ Reading keys q.next.2 left) ∨
      ∃ row left', q.next.1 = .ok true ∧ q.next.2.StandsOn row ∧ Reading keys q.next.2 left' ∧
        sortRows keys left.flatten = row :: sortRows keys left'.flatten := by
  obtain ⟨hkeys, hholds, hlt, hm⟩ := h
  cases hcur : q.current with
  | none =>
      rw [hcur] at hholds
      have hnext : q.next = (.ok q.pop.1, q.pop.2) := by rw [next, hcur]
      rw [hnext]
      rcases pop_spec hkeys hholds hm hcur with ⟨hnil, hpop, hread⟩ | ⟨row, left', hpop, hrest⟩
      · exact .inl ⟨hnil, by rw [hpop], hread⟩
      · exact .inr ⟨row, left', by rw [hpop], hrest⟩
  | some i =>
      rw [hcur] at hholds
      -- the cursor of the current row is pulled first, and then none is idle
      have hidle : Holds { q with current := none } left (i :: []) :=
        ⟨hholds.standing, hholds.isHeap, hholds.nodup, hholds.mem_waiting⟩
      obtain ⟨hok, hpull, hkeys', hcur'⟩ := holds_pull hidle (hlt i hcur) (by simp) (hkeys ▸ hm)
      have hnext : q.next = (.ok (pull { q with current := none } i).2.pop.1,
          (pull { q with current := none } i).2.pop.2) := by
        have hpair : pull { q with current := none } i =
            (.ok (), (pull { q with current := none } i).2) := Prod.ext hok rfl
        simp only [next, hcur]
        rw [hpair]
      rw [hnext]
      rcases pop_spec (hkeys'.trans hkeys) hpull hm hcur' with
        ⟨hnil, hpop, hread⟩ | ⟨row, left', hpop, hrest⟩
      · exact .inl ⟨hnil, by rw [hpop], hread⟩
      · exact .inr ⟨row, left', by rw [hpop], hrest⟩

/-! ### All rows -/

/-- A queue of cursors before their first rows has all their rows left. -/
theorem reading_start {cursors : List Cursor}
    (hfresh : ∀ c ∈ cursors, c = Cursor.ofRows c.labels c.rest)
    (hm : Mergeable keys (cursors.map (·.rest))) :
    (start keys cursors).1 = .ok () ∧
      Reading keys (start keys cursors).2 (cursors.map (·.rest)) := by
  have hlen : cursors.length = (cursors.map (·.rest)).length := by rw [List.length_map]
  -- at the start all cursors are idle
  have hidle : Holds { cursors := cursors, keys := keys } (cursors.map (·.rest))
      (List.range cursors.length) := by
    refine ⟨⟨hlen, fun c hc => by rw [hfresh c hc]; rfl, fun i _ c hc => ?_, fun i hi c hc => ?_⟩,
      trivial, List.nodup_nil, fun w => ?_⟩
    · rw [List.getElem?_map, hc, Option.map_some]
    · exact absurd (List.mem_range.2 (List.getElem?_eq_some_iff.1 hc).1) hi
    · refine ⟨fun hw => (List.not_mem_nil hw).elim, fun ⟨hw, row, rest, hget, _⟩ => ?_⟩
      obtain ⟨hlt, -⟩ := List.getElem?_eq_some_iff.1 hget
      exact absurd (List.mem_range.2 (hlen ▸ hlt)) hw
  obtain ⟨hok, hholds, hkeys, hcurrent⟩ := holds_pullAll List.nodup_range hidle
    (fun i hi => hlen ▸ List.mem_range.1 hi) hm
  have hnone : (start keys cursors).2.current = none := hcurrent
  refine ⟨hok, hkeys, ?_, ?_, hm⟩
  · rw [hnone]
    exact hholds
  · simp [hnone]

end CursorQueue

namespace MergedRows

open CursorQueue

/-- Merged rows after moving on a number of times. -/
def after : Nat → MergedRows → MergedRows
  | 0, m => m
  | n + 1, m => after n m.next.2

/-- The rows that are read from a queue are the sort of what is left in it. -/
theorem after_ordered {keys : List SortKey} {q : CursorQueue} {left : List (List Row)}
    (h : Reading keys q left) (n : Nat) :
    (∀ row, (sortRows keys left.flatten)[n]? = some row →
      ((ordered q).after n).next.1 = .ok true ∧
        ∀ column, ((ordered q).after (n + 1)).value column = rowValue row column) ∧
    ((sortRows keys left.flatten).length ≤ n → ((ordered q).after n).next.1 = .ok false) := by
  induction n generalizing q left with
  | zero =>
      rcases next_spec h with ⟨hnil, hok, -⟩ | ⟨row, left', hok, hstands, -, hsort⟩
      · refine ⟨fun row hrow => ?_, fun _ => hok⟩
        simp [hnil, sortRows] at hrow
      · rw [hsort]
        refine ⟨fun r hr => ?_, fun hle => by simp at hle⟩
        cases hr
        exact ⟨hok, hstands.value_eq⟩
  | succ n ih =>
      rcases next_spec h with ⟨hnil, -, hread⟩ | ⟨row, left', -, -, hread, hsort⟩
      · have hrest := (ih hread).2
        simp only [hnil, sortRows, List.mergeSort_nil, List.length_nil] at hrest ⊢
        exact ⟨fun row hrow => by simp at hrow, fun _ => hrest (Nat.zero_le n)⟩
      · rw [hsort, List.getElem?_cons_succ, List.length_cons, Nat.add_le_add_iff_right]
        exact ih hread

/-- **The merged rows of cursors that are in order are the stable sort of all their rows.**  Each
row comes once, its values can be read then, and no row comes after the last. -/
theorem order_spec (keys : List SortKey) (cursors : List Cursor)
    (hfresh : ∀ c ∈ cursors, c = Cursor.ofRows c.labels c.rest)
    (hm : Mergeable keys (cursors.map (·.rest))) :
    ∃ m, order keys cursors = .ok m ∧
      (∀ n row, (sortRows keys (cursors.map (·.rest)).flatten)[n]? = some row →
        (m.after n).next.1 = .ok true ∧
          ∀ column, (m.after (n + 1)).value column = rowValue row column) ∧
      ∀ n, (sortRows keys (cursors.map (·.rest)).flatten).length ≤ n →
        (m.after n).next.1 = .ok false := by
  obtain ⟨hok, hread⟩ := reading_start hfresh hm
  have horder : order keys cursors = .ok (ordered (start keys cursors).2) := by
    have hpair : start keys cursors = (.ok (), (start keys cursors).2) := Prod.ext hok rfl
    rw [order, hpair]
  exact ⟨_, horder, fun n => (after_ordered hread n).1, fun n => (after_ordered hread n).2⟩

/-- Two cursors in descending order, which both have a row with the number 1. -/
theorem order_spec_descending :
    ∃ m, order [⟨0, .desc, none⟩]
        [.ofRows ["n", "s"] [[.int 3, .text "a"], [.int 1, .text "b"]],
          .ofRows ["n", "s"] [[.int 1, .text "c"], [.null, .text "d"]]] = .ok m ∧
      (m.after 2).next.1 = .ok true ∧ (m.after 3).value 1 = .ok (.text "c") ∧
      (m.after 4).next.1 = .ok false := by
  have hsorted : sortRows [⟨0, .desc, none⟩]
      [[.int 3, .text "a"], [.int 1, .text "b"], [.int 1, .text "c"], [.null, .text "d"]] =
      [[.int 3, .text "a"], [.int 1, .text "b"], [.int 1, .text "c"], [.null, .text "d"]] :=
    List.mergeSort_of_pairwise (by decide)
  obtain ⟨m, horder, hrows, hend⟩ := order_spec [⟨0, .desc, none⟩]
    [.ofRows ["n", "s"] [[.int 3, .text "a"], [.int 1, .text "b"]],
      .ofRows ["n", "s"] [[.int 1, .text "c"], [.null, .text "d"]]]
    (by simp [Cursor.ofRows])
    { sorted := by decide, wide := by decide, unmixed := by unfold Unmixed; decide }
  simp only [Cursor.ofRows, List.map_cons, List.map_nil, List.flatten_cons, List.flatten_nil,
    List.cons_append, List.nil_append, hsorted] at hrows hend
  have hthird := hrows 2 [.int 1, .text "c"] rfl
  exact ⟨m, horder, hthird.1, hthird.2 1, hend 4 (Nat.le_refl 4)⟩

end MergedRows

end ShardedSql
