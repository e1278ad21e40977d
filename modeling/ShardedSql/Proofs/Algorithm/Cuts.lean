/-
**Cuts in ascending order divide the integers into intervals.**

The interval of an integer is the number of cuts that do not exceed it.  When the cuts ascend, these
are the first ones, so the number is the place at which a binary search for the integer ends.

Main definitions:

* `ShardedSql.Algorithm.AreCuts` — integers of 64 bits, each larger than the one before it;
* `ShardedSql.Algorithm.cuts?` — the cuts of an algorithm that has some.

Main results:

* `ShardedSql.Algorithm.lt_interval_iff` — **the cuts before the interval of an integer do not
  exceed it, those from there on do**;
* `ShardedSql.Algorithm.interval_eq` — the interval of an integer is the one whose ends it is
  between;
* `ShardedSql.Algorithm.exists_interval_eq` — between two integers every interval from that of the
  first to that of the second is met;
* `ShardedSql.AlgorithmType.areCuts_of_make` — **algorithms are made with ascending cuts only**.
-/

import ShardedSql.Proofs.Algorithm

set_option relaxedAutoImplicit false
set_option autoImplicit false

namespace ShardedSql

namespace Algorithm

variable {cuts : List Int}

/-- Integers of 64 bits, each larger than the one before it. -/
structure AreCuts (cuts : List Int) : Prop where
  ascending : cuts.Pairwise (· < ·)
  fits : ∀ cut ∈ cuts, Signed.least ≤ cut ∧ cut ≤ Signed.greatest

/-! ### Intervals -/

theorem interval_eq_zero {v : Int} (h : ∀ cut ∈ cuts, v < cut) : interval cuts v = 0 := by
  refine List.countP_eq_zero.2 fun cut hcut => ?_
  have hlt := h cut hcut
  simp only [decide_eq_true_eq]
  omega

theorem interval_eq_length {v : Int} (h : ∀ cut ∈ cuts, cut ≤ v) :
    interval cuts v = cuts.length :=
  List.countP_eq_length.2 fun cut hcut => decide_eq_true (h cut hcut)

/-- **The cuts before the interval of an integer do not exceed it, those from there on do.** -/
theorem lt_interval_iff (h : cuts.Pairwise (· < ·)) (v : Int) {i : Nat} (hi : i < cuts.length) :
    i < interval cuts v ↔ cuts[i] ≤ v := by
  induction cuts generalizing i with
  | nil => cases hi
  | cons cut rest ih =>
      obtain ⟨hcut, hrest⟩ := List.pairwise_cons.1 h
      rw [interval, List.countP_cons, ← interval]
      by_cases hle : cut ≤ v
      · rw [if_pos (decide_eq_true hle)]
        cases i with
        | zero => exact ⟨fun _ => hle, fun _ => Nat.succ_pos _⟩
        | succ i =>
            rw [List.getElem_cons_succ, Nat.add_lt_add_iff_right]
            exact ih hrest _
      · -- all cuts exceed `v`, as the first one does
        have hall : ∀ c ∈ cut :: rest, v < c := by
          intro c hc
          rcases List.mem_cons.1 hc with rfl | hc
          · omega
          · have hlt := hcut c hc
            omega
        have hzero := interval_eq_zero fun c hc => hall c (List.mem_cons_of_mem cut hc)
        have hlt := hall _ (List.getElem_mem hi)
        rw [hzero, if_neg (by simpa using hle)]
        omega

/-- The interval of an integer is the one whose ends it is between. -/
theorem interval_eq (h : cuts.Pairwise (· < ·)) {v : Int} {i : Nat} (hi : i ≤ cuts.length)
    (hreached : ∀ j (hj : j < cuts.length), j + 1 = i → cuts[j] ≤ v)
    (hunreached : ∀ hlt : i < cuts.length, v < cuts[i]) : interval cuts v = i := by
  have hlength := interval_le_length cuts v
  refine Nat.le_antisymm (Nat.not_lt.1 fun hlt => ?_) ?_
  · have hi' : i < cuts.length := by omega
    have hle := (lt_interval_iff h v hi').1 hlt
    have habove := hunreached hi'
    omega
  · cases i with
    | zero => exact Nat.zero_le _
    | succ j => exact (lt_interval_iff h v hi).2 (hreached j hi rfl)

/-- A cut is the least integer of the interval after it. -/
theorem interval_getElem (h : cuts.Pairwise (· < ·)) {i : Nat} (hi : i < cuts.length) :
    interval cuts cuts[i] = i + 1 := by
  refine interval_eq h hi (fun j hj hij => ?_) fun hi' => ?_
  · obtain rfl : j = i := by omega
    exact Int.le_refl _
  · exact List.pairwise_iff_getElem.1 h i (i + 1) hi hi' (Nat.lt_succ_self i)

/-- Between two integers every interval from that of the first to that of the second is met. -/
theorem exists_interval_eq (h : cuts.Pairwise (· < ·)) {lower upper : Int} (hle : lower ≤ upper)
    {k : Nat} (hfirst : interval cuts lower ≤ k) (hlast : k ≤ interval cuts upper) :
    ∃ v, lower ≤ v ∧ v ≤ upper ∧ interval cuts v = k := by
  rcases Nat.eq_or_lt_of_le hfirst with rfl | hlt
  · exact ⟨lower, Int.le_refl _, hle, rfl⟩
  · -- the cut before the interval is in it, and it is not below `lower`
    obtain ⟨i, rfl⟩ : ∃ i, k = i + 1 := ⟨k - 1, by omega⟩
    have hlength := interval_le_length cuts upper
    have hi : i < cuts.length := by omega
    have hbelow := (lt_interval_iff h upper hi).1 (by omega)
    have habove := mt (lt_interval_iff h lower hi).2 (by omega)
    exact ⟨cuts[i], by omega, hbelow, interval_getElem h hi⟩

/-- The cuts of an algorithm that has some. -/
def cuts? : Algorithm → Option (List Int)
  | .volumeRange cuts => some cuts
  | .boundaryRange cuts => some cuts
  | _ => none

end Algorithm

/-! ### Making -/

namespace AlgorithmType

open Algorithm

/-! #### Intervals of equal length -/

theorem volumeCuts_of_lt {upper : Int64} {volume : Nat} {cut : Int} (hvolume : 0 < volume)
    (hlt : cut < upper.toInt) :
    volumeCuts upper volume cut = cut :: volumeCuts upper volume (nextCut volume cut) := by
  rw [volumeCuts, dif_pos ⟨hvolume, hlt⟩]

theorem volumeCuts_of_le {upper : Int64} {volume : Nat} {cut : Int} (hle : upper.toInt ≤ cut) :
    volumeCuts upper volume cut = [upper.toInt] := by
  rw [volumeCuts, dif_neg (by omega)]

/-- Cuts are between the one that they begin with and the last one. -/
theorem between_of_mem_volumeCuts {upper : Int64} {volume : Nat} {start c : Int}
    (h : c ∈ volumeCuts upper volume start) : min start upper.toInt ≤ c ∧ c ≤ upper.toInt := by
  fun_induction volumeCuts upper volume start with
  | case1 cut hlt ih =>
      have hnext := lt_nextCut hlt.1 hlt.2
      rcases List.mem_cons.1 h with rfl | h
      · omega
      · have hbetween := ih h
        omega
  | case2 cut _ =>
      rw [List.mem_singleton.1 h]
      omega

theorem ascending_volumeCuts (upper : Int64) (volume : Nat) (start : Int) :
    (volumeCuts upper volume start).Pairwise (· < ·) := by
  fun_induction volumeCuts upper volume start with
  | case1 cut hlt ih =>
      refine List.pairwise_cons.2 ⟨fun c hc => ?_, ih⟩
      have hnext := lt_nextCut hlt.1 hlt.2
      have hbetween := between_of_mem_volumeCuts hc
      omega
  | case2 cut _ => exact List.pairwise_singleton _ _

theorem areCuts_volumeCuts (upper lower : Int64) (volume : Nat) :
    AreCuts (volumeCuts upper volume lower.toInt) where
  ascending := ascending_volumeCuts upper volume lower.toInt
  fits c hc := by
    have hbetween := between_of_mem_volumeCuts hc
    have hlower := Signed.toInt_fits lower
    have hupper := Signed.toInt_fits upper
    omega

/-! #### Given cuts -/

theorem mem_of_mem_foldr_consNew {cuts : List Int} {c : Int} (h : c ∈ cuts.foldr consNew []) :
    c ∈ cuts := by
  induction cuts with
  | nil => exact h
  | cons d rest ih =>
      rw [List.foldr_cons, consNew] at h
      split at h
      · exact List.mem_cons_of_mem d (ih h)
      · rcases List.mem_cons.1 h with rfl | h
        · exact List.mem_cons_self
        · exact List.mem_cons_of_mem d (ih h)

/-- Integers in order ascend when none is put before itself. -/
theorem ascending_foldr_consNew {cuts : List Int} (h : cuts.Pairwise (· ≤ ·)) :
    (cuts.foldr consNew []).Pairwise (· < ·) := by
  induction cuts with
  | nil => exact List.Pairwise.nil
  | cons c rest ih =>
      obtain ⟨hc, hrest⟩ := List.pairwise_cons.1 h
      have hascends := ih hrest
      have hmem : ∀ d ∈ rest.foldr consNew [], c ≤ d :=
        fun d hd => hc d (mem_of_mem_foldr_consNew hd)
      rw [List.foldr_cons, consNew]
      cases hall : rest.foldr consNew [] with
      | nil => exact List.pairwise_singleton _ _
      | cons d others =>
          rw [hall] at hascends hmem
          rw [List.head?_cons]
          split
          · exact hascends
          · rename_i hne
            have hlt : c < d :=
              Int.lt_iff_le_and_ne.2
                ⟨hmem d List.mem_cons_self, fun heq => hne (congrArg some heq.symm)⟩
            refine List.pairwise_cons.2 ⟨fun e he => ?_, hascends⟩
            rcases List.mem_cons.1 he with rfl | he
            · exact hlt
            · exact Int.lt_trans hlt ((List.pairwise_cons.1 hascends).1 e he)

theorem areCuts_sortedDistinct (cuts : List Int64) :
    AreCuts (sortedDistinct (cuts.map Int64.toInt)) where
  ascending := by
    refine ascending_foldr_consNew ((List.pairwise_mergeSort ?_ ?_ _).imp of_decide_eq_true)
    · intro a b c hab hbc
      exact decide_eq_true (Int.le_trans (of_decide_eq_true hab) (of_decide_eq_true hbc))
    · intro a b
      simpa using Int.le_total a b
  fits c hc := by
    obtain ⟨n, -, rfl⟩ := List.mem_map.1 (List.mem_mergeSort.1 (mem_of_mem_foldr_consNew hc))
    exact Signed.toInt_fits n

/-! #### Algorithms -/

/-- **Algorithms are made with ascending cuts only.** -/
theorem areCuts_of_make {t : AlgorithmType} {props : Properties} {a : Algorithm} {cuts : List Int}
    (h : t.make props = .ok a) (hcuts : a.cuts? = some cuts) : AreCuts cuts := by
  cases t with
  | volumeRange =>
      obtain ⟨_, -, h⟩ := Outcome.bind_eq_ok.1 h
      obtain ⟨lower, -, h⟩ := Outcome.bind_eq_ok.1 h
      obtain ⟨_, -, h⟩ := Outcome.bind_eq_ok.1 h
      obtain ⟨upper, -, h⟩ := Outcome.bind_eq_ok.1 h
      obtain ⟨volume, -, h⟩ := Outcome.bind_eq_ok.1 h
      split at h
      · cases h
      · cases h
        cases hcuts
        exact areCuts_volumeCuts upper lower volume
  | boundaryRange =>
      obtain ⟨_, -, h⟩ := Outcome.bind_eq_ok.1 h
      obtain ⟨given, -, h⟩ := Outcome.bind_eq_ok.1 h
      split at h
      · cases h
      · cases h
        cases hcuts
        exact areCuts_sortedDistinct given
  | mod =>
      obtain ⟨_, -, rfl⟩ := Outcome.map_eq_ok.1 h
      cases hcuts
  | hashMod =>
      obtain ⟨_, -, rfl⟩ := Outcome.map_eq_ok.1 h
      cases hcuts
  | crc32Mod =>
      obtain ⟨_, -, rfl⟩ := Outcome.map_eq_ok.1 h
      cases hcuts

end AlgorithmType

end ShardedSql
