/-
**Intervals of equal length in closed form.**

The cuts are made in a loop that steps from the lower end by the length of an interval, as long as
it is below the upper end.  A step that leaves the integers of 64 bits is held at the greatest of
them.  That ends the loop, since no upper end is greater; so a step that is held is never a cut, and
the cuts are those of a calculation without limits.

Main definitions:

* `ShardedSql.AlgorithmType.VolumesFrom` — properties from which the ends and the length are read;
* `ShardedSql.AlgorithmType.passes` — how often the loop steps;
* `ShardedSql.AlgorithmType.volumeInterval` — the interval of an integer by a division.

Main results:

* `ShardedSql.AlgorithmType.volumeCuts_of_passes` — what a number of passes through the loop makes;
* `ShardedSql.AlgorithmType.volume_intervals` — **the loop ends, and every integer belongs to the
  target of its closed form**, whatever the ends and the length.
-/

import Mathlib.Algebra.Order.Floor.Div
import ShardedSql.Proofs.Algorithm.Cuts
import ShardedSql.Proofs.Text.Integer

set_option relaxedAutoImplicit false
set_option autoImplicit false

namespace ShardedSql.AlgorithmType

open Algorithm

/-! ### Properties -/

/-- The ends and the length that properties give. -/
structure VolumesFrom (props : Properties) (lower upper : Int64) (volume : Nat) : Prop where
  lower : ∃ text, props.get? "range-lower" = some text ∧ readSigned text = .ok lower
  upper : ∃ text, props.get? "range-upper" = some text ∧ readSigned text = .ok upper
  volume : ∃ text, props.get? "sharding-volume" = some text ∧ readUnsigned text = .ok volume

theorem property_of_get? {t : AlgorithmType} {props : Properties} {key text : String}
    (h : props.get? key = some text) : t.property props key = .ok text := by
  rw [property, h]

theorem readSigned_numeral (n : Int64) :
    readSigned (String.ofList (Text.numeral n.toInt)) = .ok n := by
  have hblank : ∀ c ∈ Text.numeral n.toInt, Text.isBlank c = false :=
    fun _ => Text.isBlank_of_mem_numeral
  rw [readSigned, Text.trim_eq_self hblank, Text.readInt64_numeral]

theorem readUnsigned_toDigits {n : Nat} (h : n ≤ Text.maxUInt64) :
    readUnsigned (String.ofList (Nat.toDigits 10 n)) = .ok n := by
  have hblank : ∀ c ∈ Nat.toDigits 10 n, Text.isBlank c = false :=
    fun _ => Text.isBlank_of_mem_toDigits
  have hword : (UInt64.ofNat n).toNat = n :=
    UInt64.toNat_ofNat_of_lt' (by unfold Text.maxUInt64 at h; simp only [UInt64.size]; omega)
  rw [readUnsigned, Text.trim_eq_self hblank, Text.readUInt64_toDigits h]
  simp only [hword]

/-- There are properties for all ends and lengths. -/
theorem exists_volumesFrom (lower upper : Int64) {volume : Nat} (h : volume ≤ Text.maxUInt64) :
    ∃ props, VolumesFrom props lower upper volume := by
  refine ⟨⟨[("range-lower", String.ofList (Text.numeral lower.toInt)),
    ("range-upper", String.ofList (Text.numeral upper.toInt)),
    ("sharding-volume", String.ofList (Nat.toDigits 10 volume))]⟩, ⟨_, rfl, ?_⟩, ⟨_, rfl, ?_⟩,
    ⟨_, rfl, ?_⟩⟩
  · exact readSigned_numeral lower
  · exact readSigned_numeral upper
  · exact readUnsigned_toDigits h

/-- Properties with the lower end below the upper one and a length above zero make an algorithm. -/
theorem make_volumeRange {props : Properties} {lower upper : Int64} {volume : Nat}
    (h : VolumesFrom props lower upper volume) (hlt : lower.toInt < upper.toInt)
    (hpos : 0 < volume) :
    volumeRange.make props = .ok (.volumeRange (volumeCuts upper volume lower.toInt)) := by
  obtain ⟨⟨low, hlow, hlower⟩, ⟨high, hhigh, hupper⟩, ⟨length, hlength, hvolume⟩⟩ := h
  have hpositive : volumeRange.positiveProperty props "sharding-volume" = .ok volume := by
    rw [positiveProperty, property_of_get? hlength]
    simp only [bind, Except.bind, hvolume]
    rw [if_neg (by omega)]
    rfl
  rw [make, makeVolumeRange, property_of_get? hlow, property_of_get? hhigh, hpositive]
  simp only [bind, Except.bind, hlower, hupper]
  rw [if_neg (by omega)]
  rfl

/-! ### The loop -/

theorem iterate_nextCut (volume : Nat) (lower : Int64) (k : Nat) :
    (nextCut volume)^[k] lower.toInt = min (lower.toInt + k * volume) Signed.greatest := by
  have hfits := Signed.toInt_fits lower
  induction k with
  | zero =>
      rw [Function.iterate_zero_apply]
      omega
  | succ k ih =>
      rw [Function.iterate_succ_apply', ih, nextCut, Signed.held]
      have hstep : ((k + 1 : Nat) : Int) * volume = k * volume + volume := by
        rw [Int.natCast_add, Int.add_mul, Int.natCast_one, Int.one_mul]
      have hnonneg : 0 ≤ (k : Int) * volume := Int.mul_nonneg (by omega) (by omega)
      rw [hstep]
      omega

/-- A number of passes through the loop makes as many cuts, and the upper end. -/
theorem volumeCuts_of_passes {upper : Int64} {volume : Nat} (hvolume : 0 < volume) {n : Nat}
    {cut : Int} (hbelow : ∀ k < n, (nextCut volume)^[k] cut < upper.toInt)
    (hend : upper.toInt ≤ (nextCut volume)^[n] cut) :
    volumeCuts upper volume cut =
      (List.range n).map (fun k => (nextCut volume)^[k] cut) ++ [upper.toInt] := by
  induction n generalizing cut with
  | zero => exact volumeCuts_of_le hend
  | succ n ih =>
      have hfirst : cut < upper.toInt := hbelow 0 (Nat.succ_pos n)
      rw [volumeCuts_of_lt hvolume hfirst, ih (fun k hk => hbelow (k + 1) (by omega)) hend,
        List.range_succ_eq_map, List.map_cons, List.map_map]
      rfl

/-- The length that is left divided by that of an interval, rounded up. -/
def passes (lower upper : Int64) (volume : Nat) : Nat :=
  (upper.toInt - lower.toInt).toNat ⌈/⌉ volume

theorem le_passes_iff {lower upper : Int64} {volume : Nat} (hvolume : 0 < volume) {k : Nat} :
    passes lower upper volume ≤ k ↔ upper.toInt ≤ lower.toInt + k * volume := by
  rw [passes, ceilDiv_le_iff_le_mul hvolume, ← Int.ofNat_le, Int.natCast_mul, Int.mul_comm]
  have hnonneg : 0 ≤ (k : Int) * volume := Int.mul_nonneg (by omega) (by omega)
  omega

/-- All passes but the last begin below the upper end. -/
theorem iterate_nextCut_lt {lower upper : Int64} {volume : Nat} (hvolume : 0 < volume) {k : Nat}
    (hk : k < passes lower upper volume) : (nextCut volume)^[k] lower.toInt < upper.toInt := by
  have hlt := mt (le_passes_iff hvolume).2 (Nat.not_le.2 hk)
  rw [iterate_nextCut]
  omega

/-- The loop ends after its passes. -/
theorem le_iterate_nextCut {lower upper : Int64} {volume : Nat} (hvolume : 0 < volume) :
    upper.toInt ≤ (nextCut volume)^[passes lower upper volume] lower.toInt := by
  have hle := (le_passes_iff hvolume).1 (Nat.le_refl (passes lower upper volume))
  have hfits := Signed.toInt_fits upper
  rw [iterate_nextCut]
  omega

/-! ### The closed form -/

/-- The interval of an integer: before the lower end, from the upper end on, or by its distance
from the lower end. -/
def volumeInterval (lower upper : Int64) (volume : Nat) (v : Int64) : Nat :=
  if v.toInt < lower.toInt then 0
  else if upper.toInt ≤ v.toInt then passes lower upper volume + 1
  else (v.toInt - lower.toInt).toNat / volume + 1

section Cuts

variable {lower upper : Int64} {volume : Nat}

/-- The cuts are those of all passes, and the upper end. -/
theorem volumeCuts_eq (hvolume : 0 < volume) :
    volumeCuts upper volume lower.toInt =
      (List.range (passes lower upper volume)).map (fun k => (nextCut volume)^[k] lower.toInt) ++
        [upper.toInt] :=
  volumeCuts_of_passes hvolume (fun _ => iterate_nextCut_lt hvolume) (le_iterate_nextCut hvolume)

theorem length_volumeCuts (hvolume : 0 < volume) :
    (volumeCuts upper volume lower.toInt).length = passes lower upper volume + 1 := by
  rw [volumeCuts_eq hvolume, List.length_append, List.length_map, List.length_range]
  rfl

/-- The cut of a pass is the lower end and the steps before the pass. -/
theorem volumeCuts_getElem (hvolume : 0 < volume) {k : Nat} (hk : k < passes lower upper volume)
    (hlength : k < (volumeCuts upper volume lower.toInt).length) :
    (volumeCuts upper volume lower.toInt)[k] = lower.toInt + k * volume := by
  have hlt := iterate_nextCut_lt hvolume hk
  have hfits := Signed.toInt_fits upper
  simp only [volumeCuts_eq hvolume]
  rw [List.getElem_append_left (by simpa using hk), List.getElem_map, List.getElem_range]
  rw [iterate_nextCut] at hlt ⊢
  omega

/-- The last cut is the upper end. -/
theorem volumeCuts_getElem_passes (hvolume : 0 < volume)
    (hlength : passes lower upper volume < (volumeCuts upper volume lower.toInt).length) :
    (volumeCuts upper volume lower.toInt)[passes lower upper volume] = upper.toInt := by
  simp only [volumeCuts_eq hvolume]
  rw [List.getElem_append_right (by simp)]
  simp

/-- The steps of a length that fit into a distance, and one more that does not. -/
theorem steps_spec (hvolume : 0 < volume) {start v : Int} (hle : start ≤ v) :
    start + ((v - start).toNat / volume : Nat) * volume ≤ v ∧
      v < start + ((v - start).toNat / volume + 1 : Nat) * volume := by
  have hfloor := Nat.div_mul_le_self (v - start).toNat volume
  have hnext := Nat.lt_mul_div_succ (v - start).toNat hvolume
  rw [← Int.ofNat_le, Int.natCast_mul] at hfloor
  rw [← Int.ofNat_lt, Int.natCast_mul, Int.mul_comm] at hnext
  omega

/-- The interval that is found among the cuts is the one of the closed form. -/
theorem interval_volumeCuts (hvolume : 0 < volume) (hlt : lower.toInt < upper.toInt) (v : Int64) :
    interval (volumeCuts upper volume lower.toInt) v.toInt =
      volumeInterval lower upper volume v := by
  have hascends := ascending_volumeCuts upper volume lower.toInt
  have hlength : (volumeCuts upper volume lower.toInt).length = passes lower upper volume + 1 :=
    length_volumeCuts hvolume
  have hpasses (k : Nat) :
      passes lower upper volume ≤ k ↔ upper.toInt ≤ lower.toInt + k * volume :=
    le_passes_iff hvolume
  unfold volumeInterval
  split
  · -- the first cut is the lower end
    refine interval_eq hascends (Nat.zero_le _) (fun j hj hji => by omega) fun hi => ?_
    have hfirst := hpasses 0
    rw [volumeCuts_getElem hvolume (by omega)]
    omega
  · split
    · -- the last cut is the upper end
      refine interval_eq hascends (by omega) (fun j hj hji => ?_) fun hi => by omega
      obtain rfl : j = passes lower upper volume := by omega
      rw [volumeCuts_getElem_passes hvolume]
      assumption
    · -- the steps that fit below `v` are reached, and one more is not
      obtain ⟨hfloor, hnext⟩ := steps_spec hvolume (Int.not_lt.1 ‹¬v.toInt < lower.toInt›)
      have hbelow := hpasses ((v.toInt - lower.toInt).toNat / volume)
      refine interval_eq hascends (by omega) (fun j hj hji => ?_) fun hi => ?_
      · obtain rfl : j = (v.toInt - lower.toInt).toNat / volume := by omega
        rw [volumeCuts_getElem hvolume (by omega)]
        exact hfloor
      · rcases Nat.lt_or_ge ((v.toInt - lower.toInt).toNat / volume + 1)
          (passes lower upper volume) with hlast | hlast
        · rw [volumeCuts_getElem hvolume hlast]
          exact hnext
        · have heq : (v.toInt - lower.toInt).toNat / volume + 1 = passes lower upper volume := by
            omega
          simp only [heq, volumeCuts_getElem_passes hvolume]
          omega

end Cuts

/-- The target of a value whose number is known. -/
theorem target_eq_of_number {a : Algorithm} {p : ShardingPoint} {k : Nat}
    (h : a.number p.value = .ok k) (available : List String) :
    a.target available p =
      match findTarget? available k with
      | some name => .ok name
      | none => .error (a.noTarget p k) := by
  rw [target, h]
  rfl

/-- **The loop that makes the cuts ends, and every integer belongs to the target of its closed
form.**  There are properties for all ends and lengths.  The loop steps as often as the length of an
interval goes into the distance of the ends, rounded up; the algorithm is made, and the number of
an integer is 0 below the lower end, one more than these steps from the upper end on, and between
the ends one more than the steps that fit below the integer. -/
theorem volume_intervals {lower upper : Int64} {volume : Nat} (hlt : lower.toInt < upper.toInt)
    (hvolume : 0 < volume ∧ volume ≤ Text.maxInt64) :
    (∃ props, VolumesFrom props lower upper volume) ∧
    (∀ k < passes lower upper volume, (nextCut volume)^[k] lower.toInt < upper.toInt) ∧
    upper.toInt ≤ (nextCut volume)^[passes lower upper volume] lower.toInt ∧
    ∀ props, VolumesFrom props lower upper volume → ∃ a, volumeRange.make props = .ok a ∧
      ∀ v : Int64, a.number (.int v) = .ok (volumeInterval lower upper volume v) ∧
        ∀ available table column, a.target available ⟨table, column, .int v⟩ =
          match findTarget? available (volumeInterval lower upper volume v) with
          | some name => .ok name
          | none => .error <|
              a.noTarget ⟨table, column, .int v⟩ (volumeInterval lower upper volume v) := by
  obtain ⟨hpos, hmax⟩ := hvolume
  have hword : volume ≤ Text.maxUInt64 := by
    unfold Text.maxInt64 at hmax
    unfold Text.maxUInt64
    omega
  refine ⟨exists_volumesFrom lower upper hword, fun k => iterate_nextCut_lt hpos,
    le_iterate_nextCut hpos, fun props hprops => ⟨_, make_volumeRange hprops hlt hpos, fun v => ?_⟩⟩
  have hnumber : (Algorithm.volumeRange (volumeCuts upper volume lower.toInt)).number (.int v) =
      .ok (volumeInterval lower upper volume v) :=
    congrArg Except.ok (interval_volumeCuts hpos hlt v)
  exact ⟨hnumber, fun available table column => target_eq_of_number hnumber available⟩

/-- Intervals over all integers whose third step is held, at the two greatest integers. -/
theorem volume_intervals_widest :
    (-9223372036854775808 : Int64).toInt < (9223372036854775807 : Int64).toInt ∧
      (0 < 9223372036854775807 ∧ 9223372036854775807 ≤ Text.maxInt64) ∧
      ∃ props a, volumeRange.make props = .ok a ∧
        a.number (.int 9223372036854775806) = .ok 3 ∧
        a.number (.int 9223372036854775807) = .ok 4 := by
  have hlt : (-9223372036854775808 : Int64).toInt < (9223372036854775807 : Int64).toInt := by decide
  have hvolume : 0 < 9223372036854775807 ∧ 9223372036854775807 ≤ Text.maxInt64 := by decide
  obtain ⟨⟨props, hprops⟩, -, -, hmake⟩ := volume_intervals hlt hvolume
  obtain ⟨a, ha, hnumber⟩ := hmake props hprops
  refine ⟨hlt, hvolume, props, a, ha, ?_, ?_⟩
  · rw [(hnumber 9223372036854775806).1]
    rfl
  · rw [(hnumber 9223372036854775807).1]
    rfl

end ShardedSql.AlgorithmType
