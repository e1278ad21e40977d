/-
**Every integer that fits is read back from its decimal digits.**

Digits are read from the left, and the number read so far only grows; so it stays within the limit
all the way when the whole number does.

Main definitions:

* `ShardedSql.Text.numeral` — the digits of an integer, with its sign.

Main results:

* `ShardedSql.Text.readDigits_eq_ok` — digits are read as the number that they stand for;
* `ShardedSql.Text.readInt64_numeral`, `ShardedSql.Text.readUInt64_toDigits` — **an integer of 64
  bits is read back from its digits**;
* `ShardedSql.Text.trim_eq_self` — text without white space is not trimmed.
-/

import Mathlib.Data.Nat.Digits.Defs
import ShardedSql.Text.Blank
import ShardedSql.Text.Integer

set_option relaxedAutoImplicit false
set_option autoImplicit false

namespace ShardedSql.Text

/-! ### Digits -/

theorem isDigit_eq (c : Char) : isDigit c = c.isDigit := rfl

theorem le_ofDigitChars (cs : List Char) (acc : Nat) : acc ≤ Nat.ofDigitChars 10 cs acc := by
  induction cs generalizing acc with
  | nil => rw [Nat.ofDigitChars_nil]
  | cons c rest ih =>
      rw [Nat.ofDigitChars_cons]
      have hrest := ih (10 * acc + (c.toNat - '0'.toNat))
      omega

/-- Digits whose number is within the limit are read as that number. -/
theorem readDigits_eq_ok {limit : Nat} {excess : NumeralFault} {cs : List Char} {acc : Nat}
    (hdigits : ∀ c ∈ cs, isDigit c = true) (hle : Nat.ofDigitChars 10 cs acc ≤ limit) :
    readDigits limit excess acc cs = .ok (Nat.ofDigitChars 10 cs acc) := by
  induction cs generalizing acc with
  | nil => rw [readDigits, Nat.ofDigitChars_nil]
  | cons c rest ih =>
      have hnext : 10 * acc + (c.toNat - '0'.toNat) = acc * 10 + digitValue c := by
        rw [Nat.mul_comm]
        rfl
      rw [Nat.ofDigitChars_cons, hnext] at hle ⊢
      have hgrows := le_ofDigitChars rest (acc * 10 + digitValue c)
      rw [readDigits, if_pos (hdigits c List.mem_cons_self)]
      simp only
      rw [if_pos (Nat.le_trans hgrows hle)]
      exact ih (fun d hd => hdigits d (List.mem_cons_of_mem c hd)) hle

/-- The digits of a number within the limit are read as the number. -/
theorem readMagnitude_toDigits {limit n : Nat} {excess : NumeralFault} (hle : n ≤ limit) :
    readMagnitude limit excess (Nat.toDigits 10 n) = .ok n := by
  have hdigits : ∀ c ∈ Nat.toDigits 10 n, isDigit c = true := fun c hc =>
    (isDigit_eq c).trans (Nat.isDigit_of_mem_toDigits (by omega) (by omega) hc)
  have hvalue : Nat.ofDigitChars 10 (Nat.toDigits 10 n) 0 = n := Nat.ofDigitChars_ten_toDigits
  rw [readMagnitude, readDigits_eq_ok hdigits (by rw [hvalue]; exact hle), hvalue]
  exact Nat.toDigits_ne_nil

/-- The digits of a number begin with one. -/
theorem exists_toDigits_eq_cons (n : Nat) :
    ∃ c rest, Nat.toDigits 10 n = c :: rest ∧ isDigit c = true := by
  obtain ⟨c, rest, hcons⟩ := List.exists_cons_of_ne_nil (Nat.toDigits_ne_nil (n := n) (b := 10))
  have hmem : c ∈ Nat.toDigits 10 n := hcons ▸ List.mem_cons_self
  exact ⟨c, rest, hcons,
    (isDigit_eq c).trans (Nat.isDigit_of_mem_toDigits (by omega) (by omega) hmem)⟩

/-! ### White space -/

theorem isBlank_of_isDigit {c : Char} (h : isDigit c = true) : isBlank c = false := by
  rw [isDigit, Bool.and_eq_true, decide_eq_true_eq, decide_eq_true_eq] at h
  have hlow : 48 ≤ c.toNat := h.1
  have hhigh : c.toNat ≤ 57 := h.2
  simp only [isBlank, Bool.or_eq_false_iff, Bool.and_eq_false_iff, decide_eq_false_iff_not,
    beq_eq_false_iff_ne]
  omega

theorem dropWhile_eq_self {p : Char → Bool} {cs : List Char} (h : ∀ c ∈ cs.head?, p c = false) :
    cs.dropWhile p = cs := by
  cases cs with
  | nil => rfl
  | cons c rest => rw [List.dropWhile_cons, h c rfl, if_neg Bool.false_ne_true]

/-- A text that has nothing of it keeps both of its ends. -/
theorem dropWhile_ends_eq_self {p : Char → Bool} {cs : List Char} (h : ∀ c ∈ cs, p c = false) :
    ((cs.dropWhile p).reverse.dropWhile p).reverse = cs := by
  have hfront : cs.dropWhile p = cs := dropWhile_eq_self fun c hc => h c (List.mem_of_head? hc)
  have hback : cs.reverse.dropWhile p = cs.reverse :=
    dropWhile_eq_self fun c hc => h c (List.mem_reverse.1 (List.mem_of_head? hc))
  rw [hfront, hback, List.reverse_reverse]

theorem trimChars_eq_self {cs : List Char} (h : ∀ c ∈ cs, isBlank c = false) :
    trimChars cs = cs := dropWhile_ends_eq_self h

/-- Text without white space is not trimmed. -/
theorem trim_eq_self {cs : List Char} (h : ∀ c ∈ cs, isBlank c = false) :
    trim (String.ofList cs) = String.ofList cs := by
  rw [trim, String.toList_ofList, trimChars_eq_self h]

/-! ### Integers -/

/-- The decimal digits of an integer, after a minus sign when it is negative. -/
def numeral (n : Int) : List Char :=
  if n < 0 then '-' :: Nat.toDigits 10 n.natAbs else Nat.toDigits 10 n.natAbs

/-- It is the text of the integer. -/
theorem toList_toString (n : Int) : (toString n).toList = numeral n := by
  cases n with
  | ofNat m => simp [numeral, toString, Int.repr]
  | negSucc m => simp [numeral, toString, Int.repr]

theorem isBlank_of_mem_toDigits {n : Nat} {c : Char} (h : c ∈ Nat.toDigits 10 n) :
    isBlank c = false :=
  isBlank_of_isDigit ((isDigit_eq c).trans (Nat.isDigit_of_mem_toDigits (by omega) (by omega) h))

theorem isBlank_of_mem_numeral {n : Int} {c : Char} (h : c ∈ numeral n) : isBlank c = false := by
  unfold numeral at h
  split at h
  · rcases List.mem_cons.1 h with rfl | h
    · decide
    · exact isBlank_of_mem_toDigits h
  · exact isBlank_of_mem_toDigits h

/-- **An integer of 64 bits is read back from its digits.** -/
theorem readInt64_numeral (n : Int64) : readInt64 (String.ofList (numeral n.toInt)) = .ok n := by
  have hlow := n.le_toInt
  have hhigh := n.toInt_lt
  rw [readInt64, String.toList_ofList, numeral]
  by_cases hneg : n.toInt < 0
  · have habs : -(n.toInt.natAbs : Int) = n.toInt := by omega
    rw [if_pos hneg]
    simp only
    rw [readMagnitude_toDigits (by unfold maxInt64; omega)]
    exact congrArg Except.ok ((congrArg Int64.ofInt habs).trans n.ofInt_toInt)
  · have habs : (n.toInt.natAbs : Int) = n.toInt := by omega
    obtain ⟨c, rest, hcons, hdigit⟩ := exists_toDigits_eq_cons n.toInt.natAbs
    have hread : readMagnitude maxInt64 .tooLarge (Nat.toDigits 10 n.toInt.natAbs) =
        .ok n.toInt.natAbs := readMagnitude_toDigits (by unfold maxInt64; omega)
    rw [if_neg hneg, hcons] at *
    -- a digit is neither of the two signs
    split
    · cases ‹c :: rest = []›
    · cases ‹c :: rest = '-' :: _›
      cases hdigit
    · cases ‹c :: rest = '+' :: _›
      cases hdigit
    · rw [hread]
      exact congrArg Except.ok ((congrArg Int64.ofInt habs).trans n.ofInt_toInt)

/-- **A number without a sign is read back from its digits.** -/
theorem readUInt64_toDigits {n : Nat} (h : n ≤ maxUInt64) :
    readUInt64 (String.ofList (Nat.toDigits 10 n)) = .ok (UInt64.ofNat n) := by
  obtain ⟨c, rest, hcons, hdigit⟩ := exists_toDigits_eq_cons n
  have hread : readMagnitude maxUInt64 .tooLarge (Nat.toDigits 10 n) = .ok n :=
    readMagnitude_toDigits h
  rw [readUInt64, String.toList_ofList]
  rw [hcons] at *
  split
  · cases ‹c :: rest = []›
  · cases ‹c :: rest = '+' :: _›
    cases hdigit
  · rw [hread]
    rfl

end ShardedSql.Text
