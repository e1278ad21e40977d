/-
**The first values of a stable sort of lists in order.**

The sort of lists that are each in order takes one head after another.  Its first values are taken
before anything behind the first values of each list is looked at, so they depend on nothing else.

Main results:

* `ShardedSql.Sorting.exists_firstHead` — of lists that are not all empty, one begins with the first
  of the smallest heads;
* `ShardedSql.Sorting.take_mergeSort_flatten` — **the first values of the sort depend on the first
  values of each list only**.
-/

import ShardedSql.Proofs.Lists
import ShardedSql.Proofs.Sorting.Stable

set_option relaxedAutoImplicit false
set_option autoImplicit false

namespace ShardedSql.Sorting

variable {α : Type} {cmp : α → α → Ordering}

/-- As the head of the list with a number, a value is the first of the smallest heads: no head is
smaller, and none before it is as small. -/
def FirstHead (cmp : α → α → Ordering) (lists : List (List α)) (i : Nat) (x : α) : Prop :=
  ∀ j head tail, lists[j]? = some (head :: tail) → j ≠ i →
    ((cmp x head).then (compare i j)).isLE = true

/-- A head that is as small as all those of the lists behind it is the first of the smallest. -/
theorem FirstHead.zero {lists : List (List α)} {l : List α} {x : α}
    (h : ∀ (j : Nat) head tail, lists[j]? = some (head :: tail) → (cmp x head).isLE = true) :
    FirstHead cmp (l :: lists) 0 x := by
  intro j head tail hj hj0
  obtain ⟨j, rfl⟩ := Nat.exists_eq_succ_of_ne_zero hj0
  have hcompare : compare 0 j.succ = .lt := Nat.compare_eq_lt.2 (Nat.succ_pos j)
  rw [hcompare]
  exact Ordering.isLE_then_iff_and.2 ⟨h j head tail hj, .inr rfl⟩

/-- The first of the smallest heads stays so behind a list whose head, if any, is greater. -/
theorem FirstHead.succ {lists : List (List α)} {l : List α} {i : Nat} {x : α}
    (h : FirstHead cmp lists i x) (hl : ∀ head tail, l = head :: tail → cmp x head = .lt) :
    FirstHead cmp (l :: lists) (i + 1) x := by
  intro j head tail hj hji
  cases j with
  | zero =>
      rw [hl head tail (Option.some.inj hj)]
      rfl
  | succ j =>
      have hcompare : compare (i + 1) (j + 1) = compare i j := by
        simp only [Nat.compare_eq_ite_lt, Nat.add_lt_add_iff_right]
      rw [hcompare]
      exact h j head tail hj fun he => hji (congrArg (· + 1) he)

variable [Std.TransCmp cmp]

/-- The first of the smallest heads is as small as each of them. -/
theorem FirstHead.isLE {lists : List (List α)} {i : Nat} {x : α} {rest : List α}
    (h : FirstHead cmp lists i x) (hi : lists[i]? = some (x :: rest)) {j : Nat} {head : α}
    {tail : List α} (hj : lists[j]? = some (head :: tail)) : (cmp x head).isLE = true := by
  by_cases hji : j = i
  · subst hji
    rw [hi] at hj
    cases hj
    have hself : cmp x x = .eq := Std.ReflCmp.compare_self
    rw [hself]
    rfl
  · exact Ordering.isLE_left_of_isLE_then (h j head tail hj hji)

variable (cmp) in
/-- **Of lists that are not all empty, one begins with the first of the smallest heads.** -/
theorem exists_firstHead (lists : List (List α)) (hne : lists.flatten ≠ []) :
    ∃ i x rest, lists[i]? = some (x :: rest) ∧ FirstHead cmp lists i x := by
  induction lists with
  | nil => exact absurd rfl hne
  | cons l lists ih =>
      cases l with
      | nil =>
          obtain ⟨i, x, rest, hi, hfirst⟩ := ih hne
          exact ⟨i + 1, x, rest, hi, hfirst.succ fun head tail h => by cases h⟩
      | cons y l =>
          by_cases hrest : lists.flatten = []
          · -- only the first list has a head
            refine ⟨0, y, l, rfl, .zero fun j head tail hj => ?_⟩
            have hnil := List.flatten_eq_nil_iff.1 hrest _ (List.mem_of_getElem? hj)
            cases hnil
          · obtain ⟨i, x, rest, hi, hfirst⟩ := ih hrest
            cases hyx : cmp y x with
            | gt =>
                refine ⟨i + 1, x, rest, hi, hfirst.succ fun head tail h => ?_⟩
                cases h
                exact Std.OrientedCmp.lt_of_gt hyx
            | lt | eq =>
                refine ⟨0, y, l, rfl, .zero fun j head tail hj => ?_⟩
                refine Std.TransCmp.isLE_trans (b := x) ?_ (hfirst.isLE hi hj)
                rw [hyx]
                rfl

/-- Lists with the same first values have the same heads. -/
theorem exists_head_of_map_take {lists lists' : List (List α)} {k : Nat}
    (h : lists.map (List.take (k + 1)) = lists'.map (List.take (k + 1))) {i : Nat} {x : α}
    {rest : List α} (hi : lists[i]? = some (x :: rest)) :
    ∃ rest', lists'[i]? = some (x :: rest') ∧ rest.take k = rest'.take k := by
  have hget : (lists.map (List.take (k + 1)))[i]? = (lists'.map (List.take (k + 1)))[i]? := by
    rw [h]
  rw [List.getElem?_map, List.getElem?_map, hi] at hget
  cases hi' : lists'[i]? with
  | none =>
      rw [hi'] at hget
      cases hget
  | some l =>
      rw [hi', Option.map_some, Option.map_some, Option.some.injEq, List.take_succ_cons] at hget
      cases l with
      | nil => cases hget
      | cons y rest' =>
          rw [List.take_succ_cons] at hget
          obtain ⟨rfl, htake⟩ := List.cons.inj hget
          exact ⟨rest', rfl, htake⟩

/-- **The first values of the sort of some lists in order depend on the first values of each list
only.** -/
theorem take_mergeSort_flatten {k : Nat} {lists lists' : List (List α)}
    (h : lists.map (List.take k) = lists'.map (List.take k))
    (hsorted : ∀ l ∈ lists, l.Pairwise fun a b => (cmp a b).isLE)
    (hsorted' : ∀ l ∈ lists', l.Pairwise fun a b => (cmp a b).isLE) :
    (lists.flatten.mergeSort fun a b => (cmp a b).isLE).take k =
      (lists'.flatten.mergeSort fun a b => (cmp a b).isLE).take k := by
  induction k generalizing lists lists' with
  | zero => rw [List.take_zero, List.take_zero]
  | succ k ih =>
      by_cases hne : lists.flatten = []
      · -- then the other lists have no heads either
        have hne' : lists'.flatten = [] := by
          refine List.flatten_eq_nil_iff.2 fun l hl => ?_
          obtain ⟨i, hi⟩ := List.mem_iff_getElem?.1 hl
          cases l with
          | nil => rfl
          | cons x rest =>
              obtain ⟨rest', hi', -⟩ := exists_head_of_map_take h.symm hi
              have hmem := Lists.mem_flatten_of_getElem? hi' (List.mem_cons_self ..)
              rw [hne] at hmem
              cases hmem
        rw [hne, hne']
      · obtain ⟨i, x, rest, hi, hfirst⟩ := exists_firstHead cmp lists hne
        obtain ⟨rest', hi', htake⟩ := exists_head_of_map_take h hi
        have hfirst' : FirstHead cmp lists' i x := by
          intro j head tail hj hji
          obtain ⟨tail', hj', -⟩ := exists_head_of_map_take h.symm hj
          exact hfirst j head tail' hj' hji
        have hset : (lists.set i rest).map (List.take k) =
            (lists'.set i rest').map (List.take k) := by
          have hfewer : lists.map (List.take k) = lists'.map (List.take k) := by
            have hmap := congrArg (List.map (List.take k)) h
            simpa [Function.comp_def, List.take_take] using hmap
          rw [List.map_set, List.map_set, hfewer, htake]
        have hleft : ∀ l ∈ lists.set i rest, l.Pairwise fun a b => (cmp a b).isLE := by
          intro l hl
          rcases List.mem_or_eq_of_mem_set hl with hl | rfl
          · exact hsorted l hl
          · exact (hsorted _ (List.mem_of_getElem? hi)).of_cons
        have hleft' : ∀ l ∈ lists'.set i rest', l.Pairwise fun a b => (cmp a b).isLE := by
          intro l hl
          rcases List.mem_or_eq_of_mem_set hl with hl | rfl
          · exact hsorted' l hl
          · exact (hsorted' _ (List.mem_of_getElem? hi')).of_cons
        rw [mergeSort_flatten hi hsorted hfirst, mergeSort_flatten hi' hsorted' hfirst',
          List.take_succ_cons, List.take_succ_cons, ih hset hleft hleft']

end ShardedSql.Sorting
