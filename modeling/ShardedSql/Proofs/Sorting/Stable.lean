/-
**The first of some values in a stable sort.**

Sorting `a :: l` puts `a` into the sorted rest, behind what is smaller and before all else.  So the
sort of a list begins with its first smallest value, and goes on with the sort of the others.

Main results:

* `ShardedSql.Sorting.mergeSort_cons_eq_filter` — a value is put where it belongs;
* `ShardedSql.Sorting.mergeSort_first` — **the first smallest value comes first**;
* `ShardedSql.Sorting.mergeSort_congr` — only comparisons among the sorted values count;
* `ShardedSql.Sorting.mergeSort_flatten` — **of lists in order, the first smallest head comes
  first**.
-/

import Mathlib.Data.List.Sort

set_option relaxedAutoImplicit false
set_option autoImplicit false

namespace ShardedSql.Sorting

variable {α : Type} {le : α → α → Bool}

/-- A value is put behind what is smaller, and before all else. -/
theorem mergeSort_cons_eq_filter (trans : ∀ a b c, le a b = true → le b c = true → le a c = true)
    (total : ∀ a b, (le a b || le b a) = true) (a : α) (l : List α) :
    (a :: l).mergeSort le =
      (l.mergeSort le).filter (fun b => !le a b) ++
        a :: (l.mergeSort le).filter fun b => le a b := by
  obtain ⟨smaller, others, hcons, hrest, hsmaller⟩ := List.mergeSort_cons trans total a l
  have hsorted := List.pairwise_mergeSort trans total (a :: l)
  rw [hcons] at hsorted
  have hothers : ∀ b ∈ others, le a b = true :=
    (List.pairwise_cons.1 (List.pairwise_append.1 hsorted).2.1).1
  have hleft : (smaller ++ others).filter (fun b => !le a b) = smaller := by
    rw [List.filter_append, List.filter_eq_self.2 hsmaller, List.filter_eq_nil_iff.2 ?_,
      List.append_nil]
    intro b hb
    simp [hothers b hb]
  have hright : (smaller ++ others).filter (fun b => le a b) = others := by
    rw [List.filter_append, List.filter_eq_self.2 hothers, List.filter_eq_nil_iff.2 ?_,
      List.nil_append]
    intro b hb
    simpa using hsmaller b hb
  rw [hcons, hrest, hleft, hright]

/-- **The first smallest of some values comes first when they are sorted.** -/
theorem mergeSort_first (trans : ∀ a b c, le a b = true → le b c = true → le a c = true)
    (total : ∀ a b, (le a b || le b a) = true) {before after : List α} {x : α}
    (hbefore : ∀ a ∈ before, le a x = false) (hafter : ∀ a ∈ after, le x a = true) :
    (before ++ x :: after).mergeSort le = x :: (before ++ after).mergeSort le := by
  induction before with
  | nil =>
      have hall : ∀ b ∈ after.mergeSort le, le x b = true := fun b hb =>
        hafter b (List.mem_mergeSort.1 hb)
      rw [List.nil_append, List.nil_append, mergeSort_cons_eq_filter trans total,
        List.filter_eq_self.2 hall, List.filter_eq_nil_iff.2 ?_, List.nil_append]
      intro b hb
      simp [hall b hb]
  | cons a before ih =>
      have hlater := ih fun b hb => hbefore b (List.mem_cons_of_mem a hb)
      have hax := hbefore a (List.mem_cons_self ..)
      rw [List.cons_append, List.cons_append, mergeSort_cons_eq_filter trans total, hlater,
        List.filter_cons_of_pos (by simp [hax]), List.filter_cons_of_neg (by simp [hax]),
        List.cons_append, ← mergeSort_cons_eq_filter trans total]

/-- Only comparisons among the values that are sorted count. -/
theorem mergeSort_congr {le' : α → α → Bool} {l : List α}
    (h : ∀ a ∈ l, ∀ b ∈ l, le a b = le' a b) : l.mergeSort le = l.mergeSort le' := by
  have hmap := List.map_mergeSort (f := id) h
  rwa [List.map_id, List.map_id] at hmap

/-! ### Lists in order -/

variable {cmp : α → α → Ordering} [Std.TransCmp cmp]

theorem isLE_trans (a b c : α) (hab : (cmp a b).isLE = true) (hbc : (cmp b c).isLE = true) :
    (cmp a c).isLE = true := Std.TransCmp.isLE_trans hab hbc

theorem isLE_total (a b : α) : ((cmp a b).isLE || (cmp b a).isLE) = true := by
  have hswap : cmp b a = (cmp a b).swap := Std.OrientedCmp.eq_swap
  rw [hswap]
  cases cmp a b <;> rfl

/-- In a list in order nothing is smaller than its head. -/
theorem isLE_of_mem_of_pairwise {head x : α} {rest : List α}
    (h : (head :: rest).Pairwise fun a b => (cmp a b).isLE) (hx : x ∈ head :: rest) :
    (cmp head x).isLE = true := by
  rcases List.mem_cons.1 hx with rfl | hx
  · have hself : cmp x x = .eq := Std.ReflCmp.compare_self
    rw [hself]
    rfl
  · exact List.rel_of_pairwise_cons h hx

/-- **When some lists are in order and one begins with the first of their smallest heads, then so
does the sort of them all.** -/
theorem mergeSort_flatten {lists : List (List α)} {i : Nat} {x : α} {rest : List α}
    (hi : lists[i]? = some (x :: rest))
    (hsorted : ∀ l ∈ lists, l.Pairwise fun a b => (cmp a b).isLE)
    (hfirst : ∀ j head tail, lists[j]? = some (head :: tail) → j ≠ i →
      ((cmp x head).then (compare i j)).isLE = true) :
    lists.flatten.mergeSort (fun a b => (cmp a b).isLE) =
      x :: (lists.set i rest).flatten.mergeSort fun a b => (cmp a b).isLE := by
  obtain ⟨hlt, hget⟩ := List.getElem?_eq_some_iff.1 hi
  have hsplit : lists = lists.take i ++ (x :: rest) :: lists.drop (i + 1) := by
    rw [← hget, List.getElem_cons_drop, List.take_append_drop]
  have hflat : lists.flatten =
      (lists.take i).flatten ++ x :: (rest ++ (lists.drop (i + 1)).flatten) := by
    conv_lhs => rw [hsplit]
    simp
  have hset : (lists.set i rest).flatten =
      (lists.take i).flatten ++ (rest ++ (lists.drop (i + 1)).flatten) := by
    rw [List.set_eq_take_append_cons_drop, if_pos hlt, List.flatten_append, List.flatten_cons]
  rw [hflat, hset]
  -- everything in another list is behind its head, which is compared with `x`
  have hother (j : Nat) (l : List α) (hj : lists[j]? = some l) (hne : j ≠ i) (a : α) (ha : a ∈ l) :
      ∃ head, ((cmp x head).then (compare i j)).isLE = true ∧ (cmp head a).isLE = true := by
    cases l with
    | nil => cases ha
    | cons head tail =>
        exact ⟨head, hfirst j head tail hj hne,
          isLE_of_mem_of_pairwise (hsorted _ (List.mem_of_getElem? hj)) ha⟩
  refine mergeSort_first isLE_trans isLE_total (fun a ha => ?_) fun a ha => ?_
  · obtain ⟨l, hl, hal⟩ := List.mem_flatten.1 ha
    obtain ⟨j, hj, rfl⟩ := List.mem_take_iff_getElem.1 hl
    have hji : j < i := by omega
    obtain ⟨head, hxh, hha⟩ := hother j _ (List.getElem?_eq_getElem (by omega)) (by omega) a hal
    -- of equal values those of an earlier list come first, so that this head is larger
    have hlater : compare i j = .gt := Nat.compare_eq_gt.2 hji
    rw [hlater] at hxh
    have hlt : cmp x head = .lt := by
      cases hc : cmp x head <;> simp [hc] at hxh ⊢
    have hxa : cmp x a = .lt := Std.TransCmp.lt_of_lt_of_isLE hlt hha
    have hax : cmp a x = (cmp x a).swap := Std.OrientedCmp.eq_swap
    rw [hax, hxa]
    rfl
  · rcases List.mem_append.1 ha with ha | ha
    · exact List.rel_of_pairwise_cons (hsorted _ (List.mem_of_getElem? hi)) ha
    · obtain ⟨l, hl, hal⟩ := List.mem_flatten.1 ha
      obtain ⟨j, hj, rfl⟩ := List.mem_drop_iff_getElem.1 hl
      obtain ⟨head, hxh, hha⟩ :=
        hother (i + 1 + j) _ (List.getElem?_eq_getElem (by omega)) (by omega) a hal
      have hle : (cmp x head).isLE = true := by
        cases hc : cmp x head <;> simp [hc] at hxh ⊢
      exact Std.TransCmp.isLE_trans hle hha

end ShardedSql.Sorting
