/-
**Rounding an integer to floating point keeps the order.**

An integer is written with the 53 leading bits of a significand, rounded, and with its length.  Of
two integers of the same length the smaller one has no larger significand, and a significand that is
rounded up to the next power of two is no larger than the least of the next length.  So rounding may
make integers equal but never swaps them, and up to 53 bits it keeps them apart.

Main definitions:

* `ShardedSql.Decimal.Binary64.leading` — the leading bits of a whole number, rounded to 53;
* `ShardedSql.Decimal.Binary64.wholeMagnitude` — the bits of a whole number without the sign.

Main results:

* `ShardedSql.Decimal.Binary64.ofRatio_one` — a whole number is rounded to its leading bits;
* `ShardedSql.Decimal.Binary64.orderKey_ofInt_mono` — **rounding integers keeps their order**;
* `ShardedSql.Decimal.Binary64.orderKey_ofInt_strict` — integers up to 53 bits stay apart.
-/

import Mathlib.Algebra.Order.Group.Nat
import Mathlib.Algebra.Order.Monoid.Unbundled.Pow
import ShardedSql.Decimal.Binary64

set_option relaxedAutoImplicit false
set_option autoImplicit false

namespace ShardedSql.Decimal.Binary64

/-! ### Quotients -/

theorem roundEven_one (n : Nat) : roundEven n 1 = n := by
  simp [roundEven, Nat.mod_one]

theorem div_le_roundEven (num den : Nat) : num / den ≤ roundEven num den := by
  unfold roundEven
  simp only
  split <;> omega

theorem roundEven_le (num den : Nat) : roundEven num den ≤ num / den + 1 := by
  unfold roundEven
  simp only
  split <;> omega

/-- A larger number has no smaller rounded quotient. -/
theorem roundEven_mono {a b : Nat} (h : a ≤ b) (den : Nat) : roundEven a den ≤ roundEven b den := by
  rcases Nat.lt_or_ge (a / den) (b / den) with hlt | hge
  · calc roundEven a den ≤ a / den + 1 := roundEven_le a den
      _ ≤ b / den := hlt
      _ ≤ roundEven b den := div_le_roundEven b den
  · -- the quotients are equal, so that the remainders decide
    have hquot : a / den = b / den := Nat.le_antisymm (Nat.div_le_div_right h) hge
    have ha := Nat.div_add_mod a den
    have hb := Nat.div_add_mod b den
    rw [hquot] at ha
    have hrem : a % den ≤ b % den := by omega
    unfold roundEven
    simp only [hquot, Bool.or_eq_true, Bool.and_eq_true, decide_eq_true_eq, beq_iff_eq]
    split <;> split <;> omega

/-! ### Whole numbers -/

/-- The leading bits of a whole number as a significand of 53 bits, rounded. -/
def leading (n : Nat) : Nat :=
  if n.log2 ≤ 52 then n <<< (52 - n.log2) else roundEven n (1 <<< (n.log2 - 52))

/-- The bits of a whole number without the sign: its length and its leading bits. -/
def wholeMagnitude (n : Nat) : Nat :=
  if n = 0 then 0 else min ((n.log2 + 1022) * exponentBit + leading n) (2047 * exponentBit)

/-- A whole number above zero lies between the powers of two that its length gives. -/
theorem log2_bounds {n : Nat} (hn : n ≠ 0) : 2 ^ n.log2 ≤ n ∧ n < 2 * 2 ^ n.log2 := by
  have hlt : n < 2 ^ (n.log2 + 1) := Nat.lt_log2_self
  rw [Nat.pow_succ] at hlt
  exact ⟨Nat.log2_self_le hn, by omega⟩

theorem log2_mono {a b : Nat} (h : a ≤ b) : a.log2 ≤ b.log2 := by
  by_cases ha : a = 0
  · subst ha
    exact Nat.zero_le _
  · have hb : b ≠ 0 := by omega
    exact (Nat.le_log2 hb).2 ((Nat.log2_self_le ha).trans h)

/-- The significand has 53 bits, unless it was rounded up to the next power of two. -/
theorem leading_bounds {n : Nat} (hn : n ≠ 0) :
    exponentBit ≤ leading n ∧ leading n ≤ 2 * exponentBit := by
  obtain ⟨hlow, hhigh⟩ := log2_bounds hn
  have hbit : exponentBit = 2 ^ 52 := rfl
  unfold leading
  split
  · rename_i hshort
    have hpow : 2 ^ n.log2 * 2 ^ (52 - n.log2) = exponentBit := by
      rw [← Nat.pow_add, hbit, Nat.add_sub_cancel' hshort]
    rw [Nat.shiftLeft_eq]
    have hl := Nat.mul_le_mul_right (2 ^ (52 - n.log2)) hlow
    have hr := Nat.mul_le_mul_right (2 ^ (52 - n.log2)) (Nat.le_of_lt hhigh)
    rw [hpow] at hl
    rw [Nat.mul_assoc, hpow] at hr
    exact ⟨hl, hr⟩
  · rename_i hlong
    have hpow : exponentBit * 2 ^ (n.log2 - 52) = 2 ^ n.log2 := by
      rw [hbit, ← Nat.pow_add, Nat.add_sub_cancel' (by omega)]
    have hpos : 0 < 2 ^ (n.log2 - 52) := Nat.pow_pos (by decide)
    rw [Nat.one_shiftLeft]
    have hl : exponentBit ≤ n / 2 ^ (n.log2 - 52) :=
      (Nat.le_div_iff_mul_le hpos).2 (by rwa [hpow])
    have hr : n / 2 ^ (n.log2 - 52) < 2 * exponentBit :=
      (Nat.div_lt_iff_lt_mul hpos).2 (by rwa [Nat.mul_assoc, hpow])
    have hround := div_le_roundEven n (2 ^ (n.log2 - 52))
    have hround' := roundEven_le n (2 ^ (n.log2 - 52))
    omega

/-- Up to 53 bits nothing is rounded. -/
theorem leading_of_short {n : Nat} (h : n.log2 ≤ 52) : leading n = n * 2 ^ (52 - n.log2) := by
  rw [leading, if_pos h, Nat.shiftLeft_eq]

/-- Of whole numbers of one length the larger has no smaller significand. -/
theorem leading_mono {a b : Nat} (h : a ≤ b) (hlength : a.log2 = b.log2) :
    leading a ≤ leading b := by
  unfold leading
  rw [hlength]
  split
  · rw [Nat.shiftLeft_eq, Nat.shiftLeft_eq]
    exact Nat.mul_le_mul_right _ h
  · exact roundEven_mono h _

theorem wholeMagnitude_lt (n : Nat) : wholeMagnitude n < signBit := by
  unfold wholeMagnitude signBit exponentBit
  split <;> omega

/-- A larger whole number has no smaller magnitude. -/
theorem wholeMagnitude_mono {a b : Nat} (h : a ≤ b) : wholeMagnitude a ≤ wholeMagnitude b := by
  unfold wholeMagnitude
  by_cases ha : a = 0
  · rw [if_pos ha]
    exact Nat.zero_le _
  · have hb : b ≠ 0 := by omega
    rw [if_neg ha, if_neg hb]
    have hla := leading_bounds ha
    have hlb := leading_bounds hb
    refine min_le_min_right _ ?_
    rcases Nat.lt_or_eq_of_le (log2_mono h) with hlt | heq
    · -- what is rounded up is no larger than the least number of the next length
      have hstep := Nat.mul_le_mul_right exponentBit (Nat.succ_le_of_lt hlt)
      rw [Nat.succ_mul] at hstep
      rw [Nat.add_mul, Nat.add_mul]
      omega
    · rw [heq]
      exact Nat.add_le_add_left (leading_mono h heq) _

/-- Up to 53 bits, and at the first number behind them, magnitudes differ where numbers do. -/
theorem wholeMagnitude_strict {a b : Nat} (h : a < b) (hb : b ≤ 2 * exponentBit) :
    wholeMagnitude a < wholeMagnitude b := by
  have hbne : b ≠ 0 := by omega
  have hlb := leading_bounds hbne
  have hlength : b.log2 ≤ 53 := by
    by_contra hlong
    have hpow : 2 ^ 54 ≤ 2 ^ b.log2 := Nat.pow_le_pow_right (by decide) (by omega)
    have hlow := (log2_bounds hbne).1
    simp only [exponentBit] at hb
    omega
  have hmagnitude : wholeMagnitude b = (b.log2 + 1022) * exponentBit + leading b := by
    rw [wholeMagnitude, if_neg hbne, Nat.min_eq_left]
    simp only [exponentBit] at hlb ⊢
    omega
  rw [hmagnitude, wholeMagnitude]
  by_cases ha : a = 0
  · rw [if_pos ha]
    omega
  · rw [if_neg ha]
    refine Nat.lt_of_le_of_lt (Nat.min_le_left _ _) ?_
    obtain ⟨-, hahigh⟩ := log2_bounds ha
    have hashort : a.log2 ≤ 52 := by
      by_contra hlong
      have hpow : 2 ^ 53 ≤ 2 ^ a.log2 := Nat.pow_le_pow_right (by decide) (by omega)
      have hlow := (log2_bounds ha).1
      simp only [exponentBit] at hb
      omega
    have hpos : 0 < 2 ^ (52 - a.log2) := Nat.pow_pos (by decide)
    rcases Nat.lt_or_eq_of_le (log2_mono (Nat.le_of_lt h)) with hlt | heq
    · have hfull : leading a < 2 * exponentBit := by
        rw [leading_of_short hashort]
        calc a * 2 ^ (52 - a.log2) < 2 * 2 ^ a.log2 * 2 ^ (52 - a.log2) :=
              Nat.mul_lt_mul_of_pos_right hahigh hpos
          _ = 2 * exponentBit := by
              rw [Nat.mul_assoc, ← Nat.pow_add, Nat.add_sub_cancel' hashort]
              rfl
      have hstep := Nat.mul_le_mul_right exponentBit (Nat.succ_le_of_lt hlt)
      rw [Nat.succ_mul] at hstep
      rw [Nat.add_mul, Nat.add_mul]
      omega
    · rw [leading_of_short hashort, leading_of_short (heq ▸ hashort), ← heq]
      exact Nat.add_lt_add_left (Nat.mul_lt_mul_of_pos_right h hpos) _

/-! ### Integers -/

/-- A whole number divided by a power of two, as a quotient of whole numbers. -/
def scaled (n : Nat) (place : Int) : Nat × Nat :=
  if 0 ≤ place then (n, 1 <<< place.toNat) else (n <<< (-place).toNat, 1)

/-- With one bit less than its length has a whole number has more than 53 bits before the point. -/
theorem le_scaled {n : Nat} (hn : n ≠ 0) :
    2 * exponentBit ≤ (scaled n (n.log2 - 53)).1 / (scaled n (n.log2 - 53)).2 := by
  have hlow := (log2_bounds hn).1
  have hbit : 2 * exponentBit = 2 ^ 53 := rfl
  unfold scaled
  split
  · rename_i hlong
    have hplace : ((n.log2 : Int) - 53).toNat = n.log2 - 53 := by omega
    rw [hplace, Nat.one_shiftLeft, Nat.le_div_iff_mul_le (Nat.pow_pos (by decide)), hbit,
      ← Nat.pow_add, Nat.add_sub_cancel' (by omega)]
    exact hlow
  · rename_i hshort
    have hplace : (-((n.log2 : Int) - 53)).toNat = 53 - n.log2 := by omega
    have hmul := Nat.mul_le_mul_right (2 ^ (53 - n.log2)) hlow
    rw [← Nat.pow_add, Nat.add_sub_cancel' (by omega)] at hmul
    rw [hplace, Nat.div_one, Nat.shiftLeft_eq, hbit]
    exact hmul

/-- At its length a whole number has its leading bits before the point. -/
theorem roundEven_scaled (n : Nat) :
    roundEven (scaled n (n.log2 - 52)).1 (scaled n (n.log2 - 52)).2 = leading n := by
  unfold scaled leading
  by_cases hshort : n.log2 < 52
  · have hplace : (-((n.log2 : Int) - 52)).toNat = 52 - n.log2 := by omega
    rw [if_neg (by omega), if_pos (by omega), hplace, roundEven_one]
  · have hplace : ((n.log2 : Int) - 52).toNat = n.log2 - 52 := by omega
    rw [if_pos (by omega), hplace]
    split
    · rename_i hlength
      have hsame : n.log2 = 52 := by omega
      rw [hsame, Nat.sub_self, Nat.shiftLeft_zero, Nat.shiftLeft_zero, roundEven_one]
    · rfl

/-- **A whole number is rounded to its leading bits.** -/
theorem ofRatio_one (negative : Bool) (n : Nat) :
    ofRatio negative n 1 = ofMagnitude negative (wholeMagnitude n) := by
  by_cases hn : n = 0
  · rw [ofRatio, wholeMagnitude, if_pos hn, if_pos hn]
  · have hguess : max ((n.log2 : Int) - ((1 : Nat).log2 : Int) - 53) (-1074) = n.log2 - 53 := by
      have hone : (1 : Nat).log2 = 0 := by decide
      rw [hone]
      omega
    have hround := roundEven_scaled n
    have hlong := le_scaled hn
    unfold scaled at hround hlong
    have hnext : (n.log2 : Int) - 53 + 1 = n.log2 - 52 := by omega
    have hplace : ((n.log2 : Int) - 52 + 1074).toNat = n.log2 + 1022 := by omega
    unfold ofRatio wholeMagnitude
    rw [if_neg hn, if_neg hn]
    simp only [hguess]
    rw [if_pos hlong, hnext, hround, hplace]
    split
    · rename_i hlarge
      rw [Nat.min_eq_right hlarge]
      rfl
    · rename_i hsmall
      rw [Nat.min_eq_left (by omega)]

theorem orderKey_ofMagnitude (negative : Bool) {magnitude : Nat} (h : magnitude < signBit) :
    (ofMagnitude negative magnitude).orderKey =
      if negative then -(magnitude : Int) - 1 else magnitude := by
  have hbits : (ofMagnitude negative magnitude).bits.toNat =
      (if negative then signBit else 0) + magnitude := by
    rw [ofMagnitude, UInt64.toNat_ofNat']
    refine Nat.mod_eq_of_lt ?_
    unfold signBit at h ⊢
    split <;> omega
  unfold orderKey isNegative Binary64.magnitude
  rw [hbits]
  unfold signBit at h ⊢
  cases negative with
  | false => simp only [Bool.false_eq_true, if_false, ge_iff_le, decide_eq_true_eq]; split <;> omega
  | true => simp only [if_true, ge_iff_le, decide_eq_true_eq]; split <;> omega

theorem orderKey_ofInt (n : Int) :
    (ofInt n).orderKey =
      if n < 0 then -(wholeMagnitude n.natAbs : Int) - 1 else wholeMagnitude n.natAbs := by
  rw [ofInt, ofRatio_one, orderKey_ofMagnitude _ (wholeMagnitude_lt _)]
  simp only [decide_eq_true_eq]

/-- **Rounding integers keeps their order.** -/
theorem orderKey_ofInt_mono {m n : Int} (h : m ≤ n) : (ofInt m).orderKey ≤ (ofInt n).orderKey := by
  rw [orderKey_ofInt, orderKey_ofInt]
  split <;> split
  · have habs : n.natAbs ≤ m.natAbs := by omega
    have := wholeMagnitude_mono habs
    omega
  · omega
  · omega
  · have habs : m.natAbs ≤ n.natAbs := by omega
    have := wholeMagnitude_mono habs
    omega

/-- Integers up to 53 bits stay apart. -/
theorem orderKey_ofInt_strict {m n : Int} (h : m < n) (hm : m.natAbs ≤ 2 * exponentBit)
    (hn : n.natAbs ≤ 2 * exponentBit) : (ofInt m).orderKey < (ofInt n).orderKey := by
  rw [orderKey_ofInt, orderKey_ofInt]
  split <;> split
  · have := wholeMagnitude_strict (a := n.natAbs) (b := m.natAbs) (by omega) hm
    omega
  · omega
  · omega
  · have := wholeMagnitude_strict (a := m.natAbs) (b := n.natAbs) (by omega) hn
    omega

end ShardedSql.Decimal.Binary64
