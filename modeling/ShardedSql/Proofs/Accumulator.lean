/-
**What the shards have aggregated is aggregated again.**

A count, a sum, a least or a greatest value is taken from the numbers of some rows; null is not a
number.  When the numbers are spread over shards, each shard returns what it takes from its part.
Taking these in one after another gives what is taken from all numbers.  This is so for a part
without numbers too, of which a shard returns null, or zero as the count.

Main definitions:

* `ShardedSql.AggregationKind.total` — **what is taken from some numbers**;
* `ShardedSql.Value.Shows` — a value that stands for a number, or for none;
* `ShardedSql.Accumulator.Keeps` — an aggregate function that has taken in some numbers.

Main results:

* `ShardedSql.AggregationKind.total_perm` — the order of the numbers does not matter;
* `ShardedSql.Accumulator.keeps_merge` — **taking in what a shard returns is taking in its
  numbers**;
* `ShardedSql.Accumulator.Keeps.result` — the outcome is what is taken from all numbers.
-/

import ShardedSql.Accumulator
import Mathlib.Algebra.BigOperators.Group.List.Basic
import Mathlib.Algebra.Order.Ring.Int

set_option relaxedAutoImplicit false
set_option autoImplicit false

namespace ShardedSql

/-! ### Numbers -/

namespace Lists

theorem min?_append {ns ns' : List Int} {a b : Int} (ha : ns.min? = some a)
    (hb : ns'.min? = some b) : (ns ++ ns').min? = some (min a b) := by
  rw [List.min?_eq_some_iff] at ha hb ⊢
  refine ⟨?_, fun c hc => ?_⟩
  · rcases min_choice a b with h | h
    · rw [h]
      exact List.mem_append_left _ ha.1
    · rw [h]
      exact List.mem_append_right _ hb.1
  · rcases List.mem_append.1 hc with hc | hc
    · exact (min_le_left a b).trans (ha.2 c hc)
    · exact (min_le_right a b).trans (hb.2 c hc)

theorem max?_append {ns ns' : List Int} {a b : Int} (ha : ns.max? = some a)
    (hb : ns'.max? = some b) : (ns ++ ns').max? = some (max a b) := by
  rw [List.max?_eq_some_iff] at ha hb ⊢
  refine ⟨?_, fun c hc => ?_⟩
  · rcases max_choice a b with h | h
    · rw [h]
      exact List.mem_append_left _ ha.1
    · rw [h]
      exact List.mem_append_right _ hb.1
  · rcases List.mem_append.1 hc with hc | hc
    · exact (ha.2 c hc).trans (le_max_left a b)
    · exact (hb.2 c hc).trans (le_max_right a b)

end Lists

namespace AggregationKind

/-- What is taken from some numbers, or null.  An average is not taken from what the shards return
for it. -/
def total : AggregationKind → List Int → Option Int
  | .count, ns => some ns.length
  | .sum, ns => if ns = [] then none else some ns.sum
  | .min, ns => ns.min?
  | .max, ns => ns.max?
  | .avg, _ => none

/-- Nothing is taken from no numbers, apart from a count. -/
theorem total_eq_none_iff {kind : AggregationKind} {ns : List Int} (havg : kind ≠ .avg) :
    kind.total ns = none ↔ kind ≠ .count ∧ ns = [] := by
  cases kind with
  | avg => exact absurd rfl havg
  | count => simp [total]
  | sum => simp [total]
  | min => simp [total, List.min?_eq_none_iff]
  | max => simp [total, List.max?_eq_none_iff]

/-- **The order of the numbers does not matter.** -/
theorem total_perm (kind : AggregationKind) {ns ns' : List Int} (h : ns.Perm ns') :
    kind.total ns = kind.total ns' := by
  cases kind with
  | avg => rfl
  | count => rw [total, total, h.length_eq]
  | sum => simp only [total, h.sum_eq, ← List.length_eq_zero_iff, h.length_eq]
  | min =>
      refine Option.ext fun a => ?_
      simp only [total, List.min?_eq_some_iff, h.mem_iff]
  | max =>
      refine Option.ext fun a => ?_
      simp only [total, List.max?_eq_some_iff, h.mem_iff]

end AggregationKind

/-- A value stands for a number, or for none. -/
def Value.Shows (v : Value) : Option Int → Prop
  | none => v = .null
  | some n => ∃ w : Int64, v = .int w ∧ w.toInt = n

/-! ### Taking numbers in -/

namespace Accumulator

open AggregationKind (total)

/-- An aggregate function with the best value or the sum so far. -/
def ofBest (kind : AggregationKind) (best : Option Int64) : Accumulator :=
  match kind with
  | .min => ⟨.min, .extreme .lt (best.map Value.int)⟩
  | .max => ⟨.max, .extreme .gt (best.map Value.int)⟩
  | .sum => ⟨.sum, .sum (best.map Value.int)⟩
  | .count => ⟨.count, .sum (best.map Value.int)⟩
  | .avg => ⟨.avg, .sum (best.map Value.int)⟩

/-- The outcome with the best value or the sum so far. -/
def outcome (kind : AggregationKind) (best : Option Int64) : Value :=
  match best with
  | some w => .int w
  | none => if kind = .count then .int 0 else .null

/-- An aggregate function that has taken in some numbers. -/
def Keeps (kind : AggregationKind) (ns : List Int) (a : Accumulator) : Prop :=
  ∃ best, a = ofBest kind best ∧ (outcome kind best).Shows (kind.total ns)

variable {kind : AggregationKind} {ns ns' : List Int} {a : Accumulator} {v : Value}

theorem keeps_start (havg : kind ≠ .avg) : Keeps kind [] (start kind false) := by
  cases kind with
  | avg => exact absurd rfl havg
  | count => exact ⟨none, rfl, 0, rfl, rfl⟩
  | sum => exact ⟨none, rfl, rfl⟩
  | min => exact ⟨none, rfl, rfl⟩
  | max => exact ⟨none, rfl, rfl⟩

/-- **The outcome is what is taken from all numbers.** -/
theorem Keeps.result (h : Keeps kind ns a) : ∃ v, a.result = .ok v ∧ v.Shows (kind.total ns) := by
  obtain ⟨best, rfl, hshows⟩ := h
  refine ⟨outcome kind best, ?_, hshows⟩
  cases kind <;> cases best <;> rfl

/-- Without numbers a shard returns nothing that counts. -/
theorem merge_null (kind : AggregationKind) (best : Option Int64) :
    (ofBest kind best).merge [.null] = (.ok (), ofBest kind best) := by
  cases kind <;> rfl

theorem merge_none (kind : AggregationKind) (w : Int64) :
    (ofBest kind none).merge [.int w] = (.ok (), ofBest kind (some w)) := by
  cases kind <;> rfl

theorem addInts_eq {a b w : Int64} (h : w.toInt = a.toInt + b.toInt) : addInts a b = .int w := by
  rw [addInts, Signed.word?_eq_some_iff.2 h]

/-- **A value that is taken in to a least or a greatest value takes its place if it compares as
asked.** -/
theorem merge_extreme (keep : Ordering) (kind : AggregationKind) (b w : Int64) :
    (Accumulator.mk kind (.extreme keep (some (.int b)))).merge [.int w] =
      (.ok (), ⟨kind, .extreme keep
        (some (.int (if compare w.toInt b.toInt = keep then w else b)))⟩) := by
  have hbetter : better keep (some (.int b)) (.int w) =
      some (.int (if compare w.toInt b.toInt = keep then w else b)) := by
    change (if compare w.toInt b.toInt = keep then some (Value.int w) else some (.int b)) = _
    split <;> rfl
  rw [← hbetter]
  rfl

/-- A number that is taken in to a sum or a count is added to it. -/
theorem merge_sum {kind : AggregationKind} {b w t : Int64} (ht : t.toInt = b.toInt + w.toInt) :
    (Accumulator.mk kind (.sum (some (.int b)))).merge [.int w] =
      (.ok (), ⟨kind, .sum (some (.int t))⟩) := by
  have hadd : addTo (some (.int b)) (.int w) = .ok (some (.int t)) := by
    rw [← addInts_eq ht]
    rfl
  simp only [merge, hadd]
  rfl

/-- Before any number there is no best value. -/
theorem eq_nil_of_outcome_none (havg : kind ≠ .avg)
    (h : (outcome kind none).Shows (kind.total ns)) : ns = [] := by
  cases htotal : kind.total ns with
  | none => exact ((AggregationKind.total_eq_none_iff havg).1 htotal).2
  | some n =>
      rw [htotal] at h
      obtain ⟨w, hw, rfl⟩ := h
      cases kind with
      | count =>
          cases hw
          simp only [total, Option.some.injEq] at htotal
          exact List.length_eq_zero_iff.1 (Int.natCast_eq_zero.1 htotal)
      | sum => cases hw
      | min => cases hw
      | max => cases hw
      | avg => exact absurd rfl havg

/-- What is taken from two parts of which neither is without numbers. -/
theorem merge_some (havg : kind ≠ .avg) {b w : Int64} (hb : kind.total ns = some b.toInt)
    (hw : kind.total ns' = some w.toInt)
    (hfits : ∀ n ∈ kind.total (ns ++ ns'), Signed.least ≤ n ∧ n ≤ Signed.greatest) :
    ∃ t : Int64, (ofBest kind (some b)).merge [.int w] = (.ok (), ofBest kind (some t)) ∧
      kind.total (ns ++ ns') = some t.toInt := by
  have hword : ∀ n, kind.total (ns ++ ns') = some n → ∃ t : Int64, t.toInt = n := by
    intro n hn
    have hfit := hfits n hn
    refine ⟨Int64.ofInt n, Signed.word?_eq_some_iff.1 ?_⟩
    rw [Signed.word?, if_pos hfit]
  cases kind with
  | avg => exact absurd rfl havg
  | count =>
      simp only [total, Option.some.injEq] at hb hw
      have htotal : total .count (ns ++ ns') = some (b.toInt + w.toInt) := by
        simp only [total, List.length_append, ← hb, ← hw, Int.natCast_add]
      obtain ⟨t, ht⟩ := hword _ htotal
      exact ⟨t, merge_sum ht, by rw [htotal, ht]⟩
  | sum =>
      have hne : ns ≠ [] := by
        rintro rfl
        cases hb
      have hne' : ns' ≠ [] := by
        rintro rfl
        cases hw
      simp only [total, if_neg hne, if_neg hne', Option.some.injEq] at hb hw
      have htotal : total .sum (ns ++ ns') = some (b.toInt + w.toInt) := by
        simp only [total, List.append_eq_nil_iff, hne, hne', and_self, if_false, List.sum_append,
          hb, hw]
      obtain ⟨t, ht⟩ := hword _ htotal
      exact ⟨t, merge_sum ht, by rw [htotal, ht]⟩
  | min =>
      refine ⟨_, merge_extreme .lt .min b w, ?_⟩
      rw [total, Lists.min?_append hb hw]
      split
      · rename_i hlt
        rw [min_eq_right (le_of_lt (compare_lt_iff_lt.1 hlt))]
      · rename_i hlt
        rw [min_eq_left (not_lt.1 fun h => hlt (compare_lt_iff_lt.2 h))]
  | max =>
      refine ⟨_, merge_extreme .gt .max b w, ?_⟩
      rw [total, Lists.max?_append hb hw]
      split
      · rename_i hgt
        rw [max_eq_right (le_of_lt (compare_gt_iff_gt.1 hgt))]
      · rename_i hgt
        rw [max_eq_left (not_lt.1 fun h => hgt (compare_gt_iff_gt.2 h))]

/-- **Taking in what a shard returns is taking in its numbers**, as long as the outcome fits. -/
theorem keeps_merge (havg : kind ≠ .avg) (h : Keeps kind ns a) (hv : v.Shows (kind.total ns'))
    (hfits : ∀ n ∈ kind.total (ns ++ ns'), Signed.least ≤ n ∧ n ≤ Signed.greatest) :
    ∃ a', a.merge [v] = (.ok (), a') ∧ Keeps kind (ns ++ ns') a' := by
  obtain ⟨best, rfl, hbest⟩ := h
  cases htotal : kind.total ns' with
  | none =>
      -- the shard has no numbers
      obtain ⟨-, rfl⟩ := (AggregationKind.total_eq_none_iff havg).1 htotal
      rw [htotal] at hv
      rw [show v = .null from hv, List.append_nil]
      exact ⟨_, merge_null kind best, best, rfl, hbest⟩
  | some n' =>
      rw [htotal] at hv
      obtain ⟨w, rfl, hw⟩ := hv
      cases best with
      | none =>
          rw [eq_nil_of_outcome_none havg hbest, List.nil_append]
          refine ⟨_, merge_none kind w, some w, rfl, ?_⟩
          rw [htotal]
          exact ⟨w, rfl, hw⟩
      | some b =>
          have hb : kind.total ns = some b.toInt := by
            cases hn : kind.total ns with
            | none =>
                rw [hn] at hbest
                cases hbest
            | some n =>
                rw [hn] at hbest
                obtain ⟨c, hc, hcn⟩ := hbest
                cases hc
                rw [hcn]
          obtain ⟨t, hmerge, hsum⟩ := merge_some havg hb (htotal.trans (by rw [hw])) hfits
          refine ⟨_, hmerge, some t, rfl, ?_⟩
          rw [hsum]
          exact ⟨t, rfl, rfl⟩

end Accumulator

end ShardedSql
