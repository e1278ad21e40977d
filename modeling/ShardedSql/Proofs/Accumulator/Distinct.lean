/-
**Counting distinct values.**

An aggregation of distinct values keeps the different values that came; null is not counted.  The
same values serve for a count, a sum and an average, and for each of these they are added up first.
One value is taken as it is, but from the second on both sides of an addition have to stand for
numbers.  So a count of distinct values is their number as long as they can be added up, which a
count has no need of: two different texts cannot be counted.

Main definitions:

* `ShardedSql.Accumulator.takeAll` — an aggregate function that takes in one value after another;
* `ShardedSql.Accumulator.different` — the different values among some, without null;
* `ShardedSql.Value.StandsForNumber` — a value that can be added to others.

Main results:

* `ShardedSql.Accumulator.takeAll_distinct` — the different values are kept;
* `ShardedSql.Accumulator.exists_sum_iff` — **values can be added up if there is at most one of
  them or if all stand for numbers**;
* `ShardedSql.Accumulator.countDistinct_eq_ok` — **the count of distinct values is their number,
  and it is told exactly when they can be added up**.
-/

import ShardedSql.Accumulator
import ShardedSql.Proofs.Outcome

set_option relaxedAutoImplicit false
set_option autoImplicit false

namespace ShardedSql

/-- A value that stands for a number, as it is or as a text. -/
def Value.StandsForNumber (v : Value) : Prop := ∃ x, v.toFloat = .ok x

namespace Accumulator

/-! ### Taking values in -/

/-- Takes in the values of a row, unless that fails. -/
def take (a : Accumulator) (values : List Value) : Outcome Accumulator :=
  (a.merge values).1.map fun _ => (a.merge values).2

/-- Takes in one value after another. -/
def takeAll (a : Accumulator) (vs : List Value) : Outcome Accumulator :=
  vs.foldlM (fun a v => a.take [v]) a

/-- The different values among some, in the order in which they come.  Null is left out. -/
def different (vs : List Value) : List Value := (vs.filter fun v => !v.isNull).eraseDups

theorem different_concat (vs : List Value) (v : Value) :
    different (vs ++ [v]) = seenWith (different vs) v := by
  unfold different seenWith
  rw [List.filter_append]
  cases hnull : v.isNull with
  | true => simp [hnull]
  | false =>
      have hfilter : [v].filter (fun v => !v.isNull) = [v] := by simp [hnull]
      rw [hfilter, Lists.eraseDups_concat]
      simp only [Bool.false_or, List.contains_iff_mem, List.mem_eraseDups]

theorem mem_different {vs : List Value} {v : Value} :
    v ∈ different vs ↔ v ∈ vs ∧ v.isNull = false := by
  simp [different, List.mem_eraseDups]

/-- **The different values are kept**, whatever they are. -/
theorem takeAll_distinct (kind : AggregationKind) (vs : List Value) :
    takeAll ⟨kind, .distinct []⟩ vs = .ok ⟨kind, .distinct (different vs)⟩ := by
  induction vs using List.reverseRecOn with
  | nil => rfl
  | append_singleton vs v ih =>
      have hconcat : takeAll ⟨kind, .distinct []⟩ (vs ++ [v]) =
          takeAll ⟨kind, .distinct []⟩ vs >>= fun a => a.take [v] := by
        rw [takeAll, List.foldlM_append]
        exact bind_congr fun a => bind_pure _
      rw [hconcat, ih, different_concat]
      rfl

/-! ### Adding values up -/

variable {t v : Value}

/-- Two values can be added when both stand for numbers, and so does their sum. -/
theorem addTo_some_eq_ok (hv : v.isNull = false) {total : Option Value}
    (h : addTo (some t) v = .ok total) :
    t.StandsForNumber ∧ v.StandsForNumber ∧ ∃ sum, total = some sum ∧ sum.StandsForNumber := by
  unfold addTo at h
  rw [if_neg (by rw [hv]; exact Bool.false_ne_true)] at h
  split at h
  · rename_i hnone
    cases hnone
  · -- two integers
    rename_i a b hsome
    cases hsome
    cases h
    refine ⟨⟨_, rfl⟩, ⟨_, rfl⟩, _, rfl, ?_⟩
    unfold addInts
    split <;> exact ⟨_, rfl⟩
  · rename_i hsome _
    cases hsome
    obtain ⟨a, ha, h⟩ := Outcome.bind_eq_ok.1 h
    obtain ⟨b, hb, h⟩ := Outcome.bind_eq_ok.1 h
    cases h
    exact ⟨⟨a, ha⟩, ⟨b, hb⟩, _, rfl, _, rfl⟩

theorem exists_addTo_some (hv : v.isNull = false) (ht : t.StandsForNumber)
    (hnumber : v.StandsForNumber) : ∃ sum, addTo (some t) v = .ok (some sum) := by
  obtain ⟨a, ha⟩ := ht
  obtain ⟨b, hb⟩ := hnumber
  unfold addTo
  rw [if_neg (by rw [hv]; exact Bool.false_ne_true)]
  split
  · exact ⟨_, rfl⟩
  · exact ⟨_, rfl⟩
  · rename_i hsome _
    cases hsome
    exact ⟨.float (a.add b), Outcome.bind_eq_ok.2 ⟨a, ha, Outcome.bind_eq_ok.2 ⟨b, hb, rfl⟩⟩⟩

/-- More values can be added to one when all of them stand for numbers. -/
theorem exists_foldlM_addTo {vs : List Value} (hvs : ∀ v ∈ vs, v.isNull = false) :
    (∃ total, vs.foldlM addTo (some t) = .ok total) ↔
      vs = [] ∨ t.StandsForNumber ∧ ∀ v ∈ vs, v.StandsForNumber := by
  induction vs generalizing t with
  | nil => exact ⟨fun _ => .inl rfl, fun _ => ⟨_, rfl⟩⟩
  | cons v vs ih =>
      obtain ⟨hv, hvs⟩ := List.forall_mem_cons.1 hvs
      rw [List.foldlM_cons, List.forall_mem_cons]
      constructor
      · rintro ⟨total, h⟩
        obtain ⟨one, hone, hmore⟩ := Outcome.bind_eq_ok.1 h
        obtain ⟨ht, hnumber, sum, rfl, -⟩ := addTo_some_eq_ok hv hone
        refine .inr ⟨ht, hnumber, ?_⟩
        rcases (ih hvs).1 ⟨total, hmore⟩ with rfl | ⟨-, hall⟩
        · exact fun w hw => absurd hw List.not_mem_nil
        · exact hall
      · rintro (hnil | ⟨ht, hnumber, hall⟩)
        · cases hnil
        · obtain ⟨sum, hone⟩ := exists_addTo_some hv ht hnumber
          obtain ⟨-, -, _, hsome, hsum⟩ := addTo_some_eq_ok hv hone
          cases hsome
          obtain ⟨total, hmore⟩ := (ih hvs).2 (.inr ⟨hsum, hall⟩)
          exact ⟨total, Outcome.bind_eq_ok.2 ⟨_, hone, hmore⟩⟩

/-- **Values can be added up if there is at most one of them or if all stand for numbers.** -/
theorem exists_sum_iff {vs : List Value} (hvs : ∀ v ∈ vs, v.isNull = false) :
    (∃ total, vs.foldlM addTo none = .ok total) ↔
      vs.length ≤ 1 ∨ ∀ v ∈ vs, v.StandsForNumber := by
  cases vs with
  | nil => exact ⟨fun _ => .inl (Nat.zero_le 1), fun _ => ⟨none, rfl⟩⟩
  | cons v vs =>
      obtain ⟨hv, hvs⟩ := List.forall_mem_cons.1 hvs
      have hone : addTo none v = .ok (some v) := by
        unfold addTo
        rw [if_neg (by rw [hv]; exact Bool.false_ne_true)]
      have hfirst : (v :: vs).foldlM addTo none = vs.foldlM addTo (some v) := by
        rw [List.foldlM_cons, hone]
        rfl
      have hlength : (v :: vs).length ≤ 1 ↔ vs = [] := by
        rw [List.length_cons, Nat.add_le_add_iff_right, Nat.le_zero, List.length_eq_zero_iff]
      rw [hfirst, exists_foldlM_addTo hvs, List.forall_mem_cons, hlength]

/-! ### Counting -/

/-- **The count of distinct values is their number, and it is told exactly when they can be added
up**: when there is at most one of them, or when all values that came are null or stand for
numbers. -/
theorem countDistinct_eq_ok (vs : List Value) :
    ∃ a, takeAll (start .count true) vs = .ok a ∧
      ∀ out, a.result = .ok out ↔
        out = .int (Int64.ofNat (different vs).length) ∧
          ((different vs).length ≤ 1 ∨ ∀ v ∈ vs, v.isNull = true ∨ v.StandsForNumber) := by
  have hnumbers : (∀ v ∈ different vs, v.StandsForNumber) ↔
      ∀ v ∈ vs, v.isNull = true ∨ v.StandsForNumber := by
    refine forall_congr' fun v => ?_
    rw [mem_different]
    cases v.isNull <;> simp
  refine ⟨_, takeAll_distinct .count vs, fun out => ?_⟩
  rw [← hnumbers, ← exists_sum_iff fun v hv => (mem_different.1 hv).2]
  have hresult : (Accumulator.mk .count (.distinct (different vs))).result =
      (different vs).foldlM addTo none >>= fun _ =>
        pure (.int (Int64.ofNat (different vs).length)) := rfl
  rw [hresult, Outcome.bind_eq_ok]
  constructor
  · rintro ⟨total, htotal, h⟩
    cases h
    exact ⟨rfl, total, htotal⟩
  · rintro ⟨rfl, total, htotal⟩
    exact ⟨total, htotal, rfl⟩

/-- Two different texts are kept, but they are not counted, as they cannot be added. -/
theorem countDistinct_of_texts :
    different [.text "a", .text "b", .text "a", .null] = [.text "a", .text "b"] ∧
      (takeAll (start .count true) [.text "a", .text "b", .text "a", .null] >>= result) =
        .error (Value.notANumber (.text "a")) := by
  decide +kernel

end Accumulator

end ShardedSql
