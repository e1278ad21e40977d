/-
**How far the order of values is a total one.**

An integer is rounded when it is compared with a number in floating point, and is not when it is
compared with another integer.  In the order in which every integer is rounded first all values are
in a total order up to equivalence.  The order of values is that one, but that it tells two integers
apart that are rounded alike.  A number in floating point is equivalent to both of them then, which
is the only way in which transitivity fails.

Main definitions:

* `ShardedSql.Value.roundedOrder` — the order of values in which every integer is rounded first;
* `ShardedSql.Value.RoundedTogether` — two integers in falling order, and between them the number in
  floating point that both are rounded to.

Main results:

* `ShardedSql.Value.order_eq_roundedOrder` — the two orders differ between integers only;
* `ShardedSql.Value.isLE_roundedOrder` — rounding keeps the order;
* `ShardedSql.Value.order_laws` — **the order is reflexive and can be reversed, and it is transitive
  but for integers that are rounded together**, one of which has more than 53 bits.
-/

import ShardedSql.Proofs.Decimal.Rounding
import ShardedSql.Proofs.SortKey

set_option relaxedAutoImplicit false
set_option autoImplicit false

namespace ShardedSql.Value

open Decimal (Binary64)

variable {nulls : NullPlacement} {a b c : Value}

/-! ### Integers that are rounded first -/

/-- The place of a kind among the kinds, with null placed as asked. -/
def placeIn : NullPlacement → Value → Nat
  | .last, .null => 5
  | _, v => v.rank

/-- The integer by which a number is ordered when integers are rounded. -/
def roundedPart : Value → Int
  | .int n => (Binary64.ofInt n.toInt).orderKey
  | .float x => x.orderKey
  | _ => 0

/-- The order of values in which every integer is rounded first. -/
def roundedOrder (nulls : NullPlacement) : Value → Value → Ordering :=
  compareLex (compareOn (placeIn nulls)) (compareLex (compareOn boolPart)
    (compareLex (compareOn roundedPart) (compareLex (compareOn textPart) (compareOn bytesPart))))

/-- **With integers rounded first, values are in a total order up to equivalence.** -/
instance transCmp_roundedOrder (nulls : NullPlacement) : Std.TransCmp (roundedOrder nulls) := by
  unfold roundedOrder
  infer_instance

theorem exists_eq_int {v : Value} (h : v.isInt) : ∃ n, v = .int n := by
  cases v with
  | int n => exact ⟨n, rfl⟩
  | _ => cases h

/-- The order of values differs from that one between integers only. -/
theorem order_eq_roundedOrder (h : ¬ (a.isInt ∧ b.isInt)) :
    a.order nulls b = a.roundedOrder nulls b := by
  cases nulls <;> cases a <;> cases b <;> simp [isInt] at h <;>
    simp [order, roundedOrder, compareLex, compareOn, placeIn, boolPart, roundedPart, textPart,
      bytesPart, rank, NullPlacement.ofNull, Binary64.order, Std.ReflCmp.compare_self] <;> rfl

/-- Between integers it is the order of the numbers that they are rounded to. -/
theorem roundedOrder_int (m n : Int64) : (int m).roundedOrder nulls (int n) =
    (Binary64.ofInt m.toInt).order (Binary64.ofInt n.toInt) := by
  cases nulls <;> simp [roundedOrder, compareLex, compareOn, placeIn, boolPart, roundedPart,
    textPart, bytesPart, rank, Binary64.order, Std.ReflCmp.compare_self]

theorem isLE_order_int (m n : Int64) : ((int m).order nulls (int n)).isLE ↔ m.toInt ≤ n.toInt := by
  simp only [order, Int.isLE_compare]

/-- **Rounding keeps the order.** -/
theorem isLE_roundedOrder (h : (a.order nulls b).isLE) : (a.roundedOrder nulls b).isLE := by
  by_cases hints : a.isInt ∧ b.isInt
  · obtain ⟨m, rfl⟩ := exists_eq_int hints.1
    obtain ⟨n, rfl⟩ := exists_eq_int hints.2
    rw [roundedOrder_int, Binary64.order, Int.isLE_compare]
    exact Binary64.orderKey_ofInt_mono ((isLE_order_int m n).1 h)
  · rwa [← order_eq_roundedOrder hints]

/-! ### Reversal -/

/-- Comparing two values the other way gives the reverse. -/
theorem order_swap (nulls : NullPlacement) (a b : Value) :
    b.order nulls a = (a.order nulls b).swap := by
  by_cases hints : a.isInt ∧ b.isInt
  · obtain ⟨m, rfl⟩ := exists_eq_int hints.1
    obtain ⟨n, rfl⟩ := exists_eq_int hints.2
    rw [order, order]
    exact Std.OrientedCmp.eq_swap
  · rw [order_eq_roundedOrder hints, order_eq_roundedOrder fun h => hints h.symm]
    exact Std.OrientedCmp.eq_swap

/-! ### Transitivity -/

/-- Two integers in falling order, and between them the number that both are rounded to. -/
def RoundedTogether (a b c : Value) : Prop :=
  ∃ m n : Int64, a = .int m ∧ c = .int n ∧ n.toInt < m.toInt ∧
    b = .float (Binary64.ofInt m.toInt) ∧ b = .float (Binary64.ofInt n.toInt)

/-- Of two integers that are rounded together one has more than 53 bits. -/
theorem RoundedTogether.exists_long (h : RoundedTogether a b c) :
    ∃ n : Int64, (a = .int n ∨ c = .int n) ∧ 2 * Binary64.exponentBit < n.toInt.natAbs := by
  obtain ⟨m, n, ha, hc, hlt, hm, hn⟩ := h
  rw [hm] at hn
  have hsame : Binary64.ofInt m.toInt = Binary64.ofInt n.toInt := Value.float.inj hn
  by_contra hshort
  push Not at hshort
  have hstrict :=
    Binary64.orderKey_ofInt_strict hlt (hshort n (.inr hc)) (hshort m (.inl ha))
  rw [hsame] at hstrict
  exact Int.lt_irrefl _ hstrict

/-- A value that is neither before one integer nor behind another is a number. -/
theorem isNumeric_between {m n : Int64} (hab : ((int m).order nulls b).isLE)
    (hbc : (b.order nulls (int n)).isLE) : b.isNumeric := by
  cases nulls <;> cases b <;>
    simp_all [order, isNumeric, rank, NullPlacement.ofNull, Nat.isLE_compare]

/-- Integers that are rounded together are in order with the number between them. -/
theorem RoundedTogether.between (h : RoundedTogether a b c) :
    (a.order nulls b).isLE ∧ (b.order nulls c).isLE ∧ ¬ (a.order nulls c).isLE := by
  obtain ⟨m, n, rfl, rfl, hlt, hm, hn⟩ := h
  refine ⟨?_, ?_, ?_⟩
  · simp only [hm, order, Binary64.order, Int.isLE_compare, Int.le_refl]
  · simp only [hn, order, Binary64.order, Int.isLE_compare, Int.le_refl]
  · rw [isLE_order_int]
    omega

/-- Transitivity fails for nothing else. -/
theorem roundedTogether_of_not_isLE (hab : (a.order nulls b).isLE) (hbc : (b.order nulls c).isLE)
    (hac : ¬ (a.order nulls c).isLE) : RoundedTogether a b c := by
  have hrounded : (a.roundedOrder nulls c).isLE :=
    Std.TransCmp.isLE_trans (isLE_roundedOrder hab) (isLE_roundedOrder hbc)
  by_cases hints : a.isInt ∧ c.isInt
  · obtain ⟨m, rfl⟩ := exists_eq_int hints.1
    obtain ⟨n, rfl⟩ := exists_eq_int hints.2
    rw [isLE_order_int] at hac
    cases b with
    | int k =>
        -- integers are compared as they are
        rw [isLE_order_int] at hab hbc
        omega
    | float x =>
        -- the number lies between what the two are rounded to, which are in falling order
        have hfall := Binary64.orderKey_ofInt_mono (m := n.toInt) (n := m.toInt) (by omega)
        simp only [order, Binary64.order, Int.isLE_compare] at hab hbc
        exact ⟨m, n, rfl, rfl, by omega,
          congrArg Value.float (Binary64.orderKey_injective (by omega)),
          congrArg Value.float (Binary64.orderKey_injective (by omega))⟩
    | null => exact absurd (isNumeric_between hab hbc) (by decide)
    | bool v => exact absurd (isNumeric_between hab hbc) Bool.false_ne_true
    | text s => exact absurd (isNumeric_between hab hbc) Bool.false_ne_true
    | bytes bs => exact absurd (isNumeric_between hab hbc) Bool.false_ne_true
  · rw [order_eq_roundedOrder hints] at hac
    exact absurd hrounded hac

/-- **The order of values is reflexive and can be reversed, and it is transitive but for integers
that are rounded together**, one of which has more than 53 bits. -/
theorem order_laws (nulls : NullPlacement) (a b c : Value) :
    b.order nulls a = (a.order nulls b).swap ∧ a.order nulls a = .eq ∧
      ((a.order nulls b).isLE ∧ (b.order nulls c).isLE ∧ ¬ (a.order nulls c).isLE ↔
        RoundedTogether a b c) ∧
      (RoundedTogether a b c → ∃ n : Int64, (a = .int n ∨ c = .int n) ∧
        2 * Binary64.exponentBit < n.toInt.natAbs) :=
  ⟨order_swap nulls a b, order_self nulls a,
    ⟨fun ⟨hab, hbc, hac⟩ => roundedTogether_of_not_isLE hab hbc hac, RoundedTogether.between⟩,
    RoundedTogether.exists_long⟩

/-- The first integer behind those of 53 bits and the last of these are rounded together. -/
theorem order_laws_long :
    RoundedTogether (.int 9007199254740993) (.float ⟨0x4340000000000000⟩) (.int 9007199254740992) ∧
      ∃ n : Int64, (Value.int 9007199254740993 = .int n ∨ Value.int 9007199254740992 = .int n) ∧
        2 * Binary64.exponentBit < n.toInt.natAbs := by
  have htogether : RoundedTogether (.int 9007199254740993) (.float ⟨0x4340000000000000⟩)
      (.int 9007199254740992) :=
    ⟨9007199254740993, 9007199254740992, rfl, rfl, by decide +kernel, by decide +kernel,
      by decide +kernel⟩
  exact ⟨htogether, (order_laws .first _ _ _).2.2.2 htogether⟩

/-- **The order of values is not transitive**: an integer of 54 bits is equivalent to the number
that it is rounded to, and so is the integer before it. -/
theorem order_not_transitive :
    ¬ ∀ (nulls : NullPlacement) (a b c : Value), (a.order nulls b).isLE → (b.order nulls c).isLE →
      (a.order nulls c).isLE := by
  intro htrans
  have hle := htrans .first (.int 9007199254740993) (.float ⟨0x4340000000000000⟩)
    (.int 9007199254740992) (by decide +kernel) (by decide +kernel)
  exact absurd hle (by decide +kernel)

end ShardedSql.Value
