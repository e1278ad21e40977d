/-
**Every text is read back from its bytes.**

A character is written as one to four bytes, by the size of its code point.  The first byte tells
how many there are, and each of the others carries six bits.  Reading refuses what is longer than it
has to be and what stands for half of a surrogate pair; no character is written in either way.

Main definitions:

* `ShardedSql.Text.tailByte` — a byte behind the first one of a character.

Main results:

* `ShardedSql.Text.decodeUtf8_one`, `ShardedSql.Text.decodeUtf8_two`,
  `ShardedSql.Text.decodeUtf8_three`, `ShardedSql.Text.decodeUtf8_four` — sequences that are read as
  a character;
* `ShardedSql.Text.decodeUtf8_encodeChar` — a character is read back, and reading goes on behind it;
* `ShardedSql.Text.ofUtf8_utf8` — **a text is read back from its bytes**.
-/

import ShardedSql.Proofs.Text.Bytes

set_option relaxedAutoImplicit false
set_option autoImplicit false

namespace ShardedSql.Text

/-! ### Sequences -/

section

variable {lo hi a b c d : UInt8} {rest : List UInt8}

theorem isBetween_iff :
    (lo ≤ a && a ≤ hi) = true ↔ lo.toNat ≤ a.toNat ∧ a.toNat ≤ hi.toNat := by
  simp [UInt8.le_iff_toNat_le]

theorem not_isBetween (h : hi.toNat < a.toNat) : ¬(lo ≤ a && a ≤ hi) = true := fun hbetween =>
  Nat.not_le.2 h (isBetween_iff.1 hbetween).2

theorem isTail_iff : isTail b = true ↔ 0x80 ≤ b.toNat ∧ b.toNat ≤ 0xBF := isBetween_iff

/-- The second of three bytes is neither too small for three nor that of a surrogate. -/
theorem isSecondOfThree_of_bounds (hb : 0x80 ≤ b.toNat ∧ b.toNat ≤ 0xBF)
    (hlow : a.toNat = 0xE0 → 0xA0 ≤ b.toNat) (hhigh : a.toNat = 0xED → b.toNat ≤ 0x9F) :
    isSecondOfThree a b = true := by
  unfold isSecondOfThree
  split
  · rename_i ha
    exact isBetween_iff.2 ⟨hlow (congrArg UInt8.toNat ha), hb.2⟩
  · split
    · rename_i ha
      exact isBetween_iff.2 ⟨hb.1, hhigh (congrArg UInt8.toNat ha)⟩
    · exact isTail_iff.2 hb

/-- The second of four bytes is neither too small for four nor beyond the last character. -/
theorem isSecondOfFour_of_bounds (hb : 0x80 ≤ b.toNat ∧ b.toNat ≤ 0xBF)
    (hlow : a.toNat = 0xF0 → 0x90 ≤ b.toNat) (hhigh : a.toNat = 0xF4 → b.toNat ≤ 0x8F) :
    isSecondOfFour a b = true := by
  unfold isSecondOfFour
  split
  · rename_i ha
    exact isBetween_iff.2 ⟨hlow (congrArg UInt8.toNat ha), hb.2⟩
  · split
    · rename_i ha
      exact isBetween_iff.2 ⟨hb.1, hhigh (congrArg UInt8.toNat ha)⟩
    · exact isTail_iff.2 hb

theorem not_isOne (h : 0x80 ≤ a.toNat) : ¬a < 0x80 := fun hone =>
  Nat.not_lt.2 h (UInt8.lt_iff_toNat_lt.1 hone)

theorem decodeUtf8_one (index : Nat) (ha : a.toNat < 0x80) :
    decodeUtf8 index (a :: rest) =
      (decodeUtf8 (index + 1) rest).map (Char.ofNat a.toNat :: ·) := by
  rw [decodeUtf8.eq_def]
  simp only
  rw [if_pos (UInt8.lt_iff_toNat_lt.2 ha)]

theorem decodeUtf8_two (index : Nat) (ha : 0xC2 ≤ a.toNat ∧ a.toNat ≤ 0xDF)
    (hb : isTail b = true) :
    decodeUtf8 index (a :: b :: rest) =
      (decodeUtf8 (index + 2) rest).map
        (Char.ofNat (a.toNat % 32 * 64 + tailBits b) :: ·) := by
  have htwo : (0xC2 ≤ a && a ≤ 0xDF) = true := isBetween_iff.2 ha
  rw [decodeUtf8.eq_def]
  simp only
  rw [if_neg (not_isOne (by omega)), if_pos htwo, if_pos hb]

theorem decodeUtf8_three (index : Nat) (ha : 0xE0 ≤ a.toNat ∧ a.toNat ≤ 0xEF)
    (hb : isSecondOfThree a b = true) (hc : isTail c = true) :
    decodeUtf8 index (a :: b :: c :: rest) =
      (decodeUtf8 (index + 3) rest).map
        (Char.ofNat ((a.toNat % 16 * 64 + tailBits b) * 64 + tailBits c) :: ·) := by
  have htwo : ¬(0xC2 ≤ a && a ≤ 0xDF) = true := not_isBetween ha.1
  have hthree : (0xE0 ≤ a && a ≤ 0xEF) = true := isBetween_iff.2 ha
  have hsecond : ¬(!isSecondOfThree a b) = true := by rw [hb]; exact Bool.false_ne_true
  rw [decodeUtf8.eq_def]
  simp only
  rw [if_neg (not_isOne (by omega)), if_neg htwo, if_pos hthree, if_neg hsecond, if_pos hc]

theorem decodeUtf8_four (index : Nat) (ha : 0xF0 ≤ a.toNat ∧ a.toNat ≤ 0xF4)
    (hb : isSecondOfFour a b = true) (hc : isTail c = true) (hd : isTail d = true) :
    decodeUtf8 index (a :: b :: c :: d :: rest) =
      (decodeUtf8 (index + 4) rest).map
        (Char.ofNat
          (((a.toNat % 8 * 64 + tailBits b) * 64 + tailBits c) * 64 + tailBits d) :: ·) := by
  have hlarge : 0xDF < a.toNat := by omega
  have htwo : ¬(0xC2 ≤ a && a ≤ 0xDF) = true := not_isBetween hlarge
  have hthree : ¬(0xE0 ≤ a && a ≤ 0xEF) = true := not_isBetween ha.1
  have hfour : (0xF0 ≤ a && a ≤ 0xF4) = true := isBetween_iff.2 ha
  have hsecond : ¬(!isSecondOfFour a b) = true := by rw [hb]; exact Bool.false_ne_true
  have hthird : ¬(!isTail c) = true := by rw [hc]; exact Bool.false_ne_true
  rw [decodeUtf8.eq_def]
  simp only
  rw [if_neg (not_isOne (by omega)), if_neg htwo, if_neg hthree, if_pos hfour, if_neg hsecond,
    if_neg hthird, if_pos hd]

end

/-! ### Characters -/

theorem toNat_ofNat {n : Nat} (h : n < 256) : (UInt8.ofNat n).toNat = n :=
  UInt8.toNat_ofNat_of_lt' h

/-- A byte behind the first, with six bits of a code point. -/
def tailByte (n : Nat) : UInt8 := UInt8.ofNat (n % 64 + 0x80)

theorem toNat_tailByte (n : Nat) : (tailByte n).toNat = n % 64 + 0x80 := toNat_ofNat (by omega)

theorem isTail_tailByte (n : Nat) : isTail (tailByte n) = true := by
  rw [isTail_iff, toNat_tailByte]
  omega

theorem tailBits_tailByte (n : Nat) : tailBits (tailByte n) = n % 64 := by
  rw [tailBits, toNat_tailByte]
  omega

/-- **A character is read back**, and reading goes on behind it. -/
theorem decodeUtf8_encodeChar (index : Nat) (c : Char) (rest : List UInt8) :
    decodeUtf8 index (String.utf8EncodeChar c ++ rest) =
      (decodeUtf8 (index + c.utf8Size) rest).map (c :: ·) := by
  have hvalid : c.toNat < 0xD800 ∨ 0xDFFF < c.toNat ∧ c.toNat < 0x110000 := c.valid
  have hback : Char.ofNat c.toNat = c := Char.ofNat_toNat c
  rw [← String.length_utf8EncodeChar]
  fun_cases String.utf8EncodeChar c with
  | case1 v hone =>
      change decodeUtf8 index (UInt8.ofNat c.toNat :: rest) = _
      have hsmall : c.toNat ≤ 0x7F := hone
      have ha : (UInt8.ofNat c.toNat).toNat = c.toNat := toNat_ofNat (by omega)
      rw [decodeUtf8_one index (by omega), ha, hback]
      rfl
  | case2 v hone htwo =>
      change decodeUtf8 index (UInt8.ofNat (v / 64 % 32 + 0xC0) :: tailByte v :: rest) = _
      have ha : (UInt8.ofNat (v / 64 % 32 + 0xC0)).toNat = v / 64 % 32 + 0xC0 :=
        toNat_ofNat (by omega)
      have hpoint : (v / 64 % 32 + 0xC0) % 32 * 64 + v % 64 = v := by omega
      rw [decodeUtf8_two index (by omega) (isTail_tailByte v), ha, tailBits_tailByte, hpoint]
      exact congrArg (fun x => (decodeUtf8 (index + 2) rest).map (x :: ·)) hback
  | case3 v hone htwo hthree =>
      change decodeUtf8 index (UInt8.ofNat (v / 4096 % 16 + 0xE0) :: tailByte (v / 64) ::
        tailByte v :: rest) = _
      have hv : v = c.toNat := rfl
      have ha : (UInt8.ofNat (v / 4096 % 16 + 0xE0)).toNat = v / 4096 % 16 + 0xE0 :=
        toNat_ofNat (by omega)
      have hb := toNat_tailByte (v / 64)
      have hsecond : isSecondOfThree (UInt8.ofNat (v / 4096 % 16 + 0xE0)) (tailByte (v / 64)) =
          true := isSecondOfThree_of_bounds (by omega) (by omega) (by omega)
      have hpoint : ((v / 4096 % 16 + 0xE0) % 16 * 64 + v / 64 % 64) * 64 + v % 64 = v := by omega
      rw [decodeUtf8_three index (by omega) hsecond (isTail_tailByte v), ha, tailBits_tailByte,
        tailBits_tailByte, hpoint]
      exact congrArg (fun x => (decodeUtf8 (index + 3) rest).map (x :: ·)) hback
  | case4 v hone htwo hthree =>
      change decodeUtf8 index (UInt8.ofNat (v / 262144 % 8 + 0xF0) :: tailByte (v / 4096) ::
        tailByte (v / 64) :: tailByte v :: rest) = _
      have hv : v = c.toNat := rfl
      have ha : (UInt8.ofNat (v / 262144 % 8 + 0xF0)).toNat = v / 262144 % 8 + 0xF0 :=
        toNat_ofNat (by omega)
      have hb := toNat_tailByte (v / 4096)
      have hsecond : isSecondOfFour (UInt8.ofNat (v / 262144 % 8 + 0xF0)) (tailByte (v / 4096)) =
          true := isSecondOfFour_of_bounds (by omega) (by omega) (by omega)
      have hpoint : (((v / 262144 % 8 + 0xF0) % 8 * 64 + v / 4096 % 64) * 64 + v / 64 % 64) * 64 +
          v % 64 = v := by omega
      rw [decodeUtf8_four index (by omega) hsecond (isTail_tailByte (v / 64)) (isTail_tailByte v),
        ha, tailBits_tailByte, tailBits_tailByte, tailBits_tailByte, hpoint]
      exact congrArg (fun x => (decodeUtf8 (index + 4) rest).map (x :: ·)) hback

/-- The bytes of some characters are read back as these. -/
theorem decodeUtf8_charBytes (index : Nat) (cs : List Char) :
    decodeUtf8 index (charBytes cs) = .ok cs := by
  induction cs generalizing index with
  | nil => exact decodeUtf8_nil index
  | cons c rest ih =>
      change decodeUtf8 index (String.utf8EncodeChar c ++ charBytes rest) = _
      rw [decodeUtf8_encodeChar, ih]
      rfl

/-- **A text is read back from its bytes.** -/
theorem ofUtf8_utf8 (s : String) : ofUtf8 (utf8 s) = .ok s := by
  rw [ofUtf8, utf8_eq_charBytes, decodeUtf8_charBytes]
  exact congrArg Except.ok String.ofList_toList

end ShardedSql.Text
