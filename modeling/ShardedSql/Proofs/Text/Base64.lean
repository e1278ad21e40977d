/-
**All bytes are read back from Base64.**

Reading looks at the first symbols of each group of four and at how the last group is filled up.
What is written consists of whole groups, the symbols stand for their numbers, and the bits that
belong to no byte are zero, so none of the checks on reading stops it.

Main definitions:

* `ShardedSql.Text.base64Alphabet` — the 64 symbols in the order of their numbers;
* `ShardedSql.Text.IsBase64` — whole groups of symbols, the last one filled up.

Main results:

* `ShardedSql.Text.base64Symbol_eq` — the symbols are those of the alphabet;
* `ShardedSql.Text.isBase64_toBase64` — what is written has the form;
* `ShardedSql.Text.decodeLastGroup_one`, `ShardedSql.Text.decodeLastGroup_two`,
  `ShardedSql.Text.decodeLastGroup_three` — how the last group is read;
* `ShardedSql.Text.ofBase64_toBase64` — **bytes are read back from their text**.
-/

import ShardedSql.Proofs.Text.Bytes
import ShardedSql.Text.Base64

set_option relaxedAutoImplicit false
set_option autoImplicit false

namespace ShardedSql.Text

/-! ### Symbols -/

/-- The symbols in the order of their numbers. -/
def base64Alphabet : List Char :=
  "ABCDEFGHIJKLMNOPQRSTUVWXYZabcdefghijklmnopqrstuvwxyz0123456789+/".toList

theorem base64Symbol_eq : ∀ n < 64, base64Alphabet[n]? = some (base64Symbol n) := by decide +kernel

/-- The byte of a symbol. -/
def symbolByte (n : Nat) : UInt8 := UInt8.ofNat (base64Symbol n).toNat

theorem base64Value?_symbolByte : ∀ n < 64, base64Value? (symbolByte n) = some n := by decide

theorem symbolByte_ne_fillByte : ∀ n < 64, symbolByte n ≠ fillByte := by decide

theorem utf8EncodeChar_base64Symbol :
    ∀ n < 64, String.utf8EncodeChar (base64Symbol n) = [symbolByte n] := by decide

theorem base64Value_symbolByte (offset : Nat) {n : Nat} (h : n < 64) :
    base64Value offset (symbolByte n) = .ok n := by
  rw [base64Value, base64Value?_symbolByte n h]

/-! ### What is written -/

/-- Whole groups of four symbols, of which at most the last two are filled up. -/
structure IsBase64 (cs : List Char) : Prop where
  groups : 4 ∣ cs.length
  symbols : ∃ symbols fills, cs = symbols ++ List.replicate fills '=' ∧ fills ≤ 2 ∧
    ∀ c ∈ symbols, c ∈ base64Alphabet

theorem base64Symbol_mem {n : Nat} (h : n < 64) : base64Symbol n ∈ base64Alphabet :=
  List.mem_of_getElem? (base64Symbol_eq n h)

/-- A group in front of others. -/
theorem IsBase64.append {group cs : List Char} (h : IsBase64 cs) (hlength : group.length = 4)
    (hgroup : ∀ c ∈ group, c ∈ base64Alphabet) : IsBase64 (group ++ cs) := by
  obtain ⟨hgroups, symbols, fills, rfl, hfills, hsymbols⟩ := h
  refine ⟨?_, group ++ symbols, fills, (List.append_assoc _ _ _).symm, hfills, fun c hc => ?_⟩
  · rw [List.length_append, hlength]
    exact (Nat.dvd_add_right (Nat.dvd_refl 4)).2 hgroups
  · rcases List.mem_append.1 hc with hc | hc
    · exact hgroup c hc
    · exact hsymbols c hc

theorem isBase64_base64Chars (bytes : List UInt8) : IsBase64 (base64Chars bytes) := by
  fun_induction base64Chars bytes with
  | case1 => exact ⟨⟨0, rfl⟩, [], 0, rfl, by omega, by simp⟩
  | case2 a =>
      have ha := a.toNat_lt
      refine ⟨⟨1, rfl⟩, [_, _], 2, rfl, by omega, fun c hc => ?_⟩
      simp only [List.mem_cons, List.not_mem_nil, or_false] at hc
      rcases hc with rfl | rfl <;> exact base64Symbol_mem (by omega)
  | case3 a b =>
      have ha := a.toNat_lt
      have hb := b.toNat_lt
      refine ⟨⟨1, rfl⟩, [_, _, _], 1, rfl, by omega, fun c hc => ?_⟩
      simp only [List.mem_cons, List.not_mem_nil, or_false] at hc
      rcases hc with rfl | rfl | rfl <;> exact base64Symbol_mem (by omega)
  | case4 a b c rest ih =>
      have ha := a.toNat_lt
      have hb := b.toNat_lt
      have hc := c.toNat_lt
      have hgroup : ∀ d ∈ [base64Symbol (a.toNat / 4),
          base64Symbol (a.toNat % 4 * 16 + b.toNat / 16),
          base64Symbol (b.toNat % 16 * 4 + c.toNat / 64), base64Symbol (c.toNat % 64)],
          d ∈ base64Alphabet := by
        intro d hd
        simp only [List.mem_cons, List.not_mem_nil, or_false] at hd
        rcases hd with rfl | rfl | rfl | rfl <;> exact base64Symbol_mem (by omega)
      exact ih.append rfl hgroup

/-- Bytes are written in whole groups of the alphabet. -/
theorem isBase64_toBase64 (bytes : List UInt8) : IsBase64 (toBase64 bytes).toList := by
  rw [toBase64, String.toList_ofList]
  exact isBase64_base64Chars bytes

/-! ### The last group -/

section

variable {start firstFill fills offset k l m n : Nat} {values : List (Nat × UInt8)}
  {rest : List UInt8}

theorem readLastGroup_symbol (h : n < 64) :
    readLastGroup start firstFill 0 values offset (symbolByte n :: rest) =
      readLastGroup start firstFill 0 ((n, symbolByte n) :: values) (offset + 1) rest := by
  rw [readLastGroup, if_neg (symbolByte_ne_fillByte n h), if_neg (Nat.lt_irrefl 0),
    base64Value_symbolByte offset h]
  rfl

theorem readLastGroup_fill (h : start + 2 ≤ offset) :
    readLastGroup start firstFill fills values offset (fillByte :: rest) =
      readLastGroup start (if fills = 0 then offset else firstFill) (fills + 1) values
        (offset + 1) rest := by
  rw [readLastGroup, if_pos rfl, if_neg (by omega)]

theorem decodeLastGroup_one (offset : Nat) (hm : m < 64) (hn : n < 64) (hzero : n % 16 = 0) :
    decodeLastGroup offset [symbolByte m, symbolByte n, fillByte, fillByte] =
      .ok [UInt8.ofNat (m * 4 + n / 16)] := by
  rw [decodeLastGroup, readLastGroup_symbol hm, readLastGroup_symbol hn,
    readLastGroup_fill (by omega), readLastGroup_fill (by omega), readLastGroup]
  simp [hzero, bind, Except.bind, pure, Except.pure]

theorem decodeLastGroup_two (offset : Nat) (hl : l < 64) (hm : m < 64) (hn : n < 64)
    (hzero : n % 4 = 0) :
    decodeLastGroup offset [symbolByte l, symbolByte m, symbolByte n, fillByte] =
      .ok [UInt8.ofNat (l * 4 + m / 16), UInt8.ofNat (m % 16 * 16 + n / 4)] := by
  rw [decodeLastGroup, readLastGroup_symbol hl, readLastGroup_symbol hm, readLastGroup_symbol hn,
    readLastGroup_fill (by omega), readLastGroup]
  simp [hzero, bind, Except.bind, pure, Except.pure]

theorem decodeLastGroup_three (offset : Nat) (hk : k < 64) (hl : l < 64) (hm : m < 64)
    (hn : n < 64) :
    decodeLastGroup offset [symbolByte k, symbolByte l, symbolByte m, symbolByte n] =
      .ok [UInt8.ofNat (k * 4 + l / 16), UInt8.ofNat (l % 16 * 16 + m / 4),
        UInt8.ofNat (m % 4 * 64 + n)] := by
  rw [decodeLastGroup, readLastGroup_symbol hk, readLastGroup_symbol hl, readLastGroup_symbol hm,
    readLastGroup_symbol hn, readLastGroup]
  simp [bind, Except.bind, pure, Except.pure]

end

/-! ### All groups -/

theorem charBytes_symbol {n : Nat} (h : n < 64) (cs : List Char) :
    charBytes (base64Symbol n :: cs) = symbolByte n :: charBytes cs := by
  rw [charBytes, List.flatMap_cons, utf8EncodeChar_base64Symbol n h]
  rfl

theorem charBytes_fill (cs : List Char) : charBytes ('=' :: cs) = fillByte :: charBytes cs := rfl

/-- A whole group, whatever comes behind it. -/
theorem decodeGroups_group {k l m n : Nat} (offset : Nat) (hk : k < 64) (hl : l < 64)
    (hm : m < 64) (hn : n < 64) {rest bytes : List UInt8}
    (h : decodeGroups (offset + 4) rest = .ok bytes) :
    decodeGroups offset (symbolByte k :: symbolByte l :: symbolByte m :: symbolByte n :: rest) =
      .ok (UInt8.ofNat (k * 4 + l / 16) :: UInt8.ofNat (l % 16 * 16 + m / 4) ::
        UInt8.ofNat (m % 4 * 64 + n) :: bytes) := by
  cases rest with
  | nil =>
      cases h
      exact decodeLastGroup_three offset hk hl hm hn
  | cons b rest =>
      rw [decodeGroups, base64Value_symbolByte offset hk, base64Value_symbolByte _ hl,
        base64Value_symbolByte _ hm, base64Value_symbolByte _ hn, h]
      rfl

theorem ofNat_eq {n : Nat} {b : UInt8} (h : n = b.toNat) : UInt8.ofNat n = b := by
  rw [h, UInt8.ofNat_toNat]

theorem decodeGroups_base64Chars (offset : Nat) (bytes : List UInt8) :
    decodeGroups offset (charBytes (base64Chars bytes)) = .ok bytes := by
  fun_induction base64Chars bytes generalizing offset with
  | case1 => rfl
  | case2 a =>
      have ha := a.toNat_lt
      rw [charBytes_symbol (by omega), charBytes_symbol (by omega), charBytes_fill, charBytes_fill]
      refine (decodeLastGroup_one offset (by omega) (by omega) (by omega)).trans ?_
      rw [ofNat_eq (b := a) (by omega)]
  | case3 a b =>
      have ha := a.toNat_lt
      have hb := b.toNat_lt
      rw [charBytes_symbol (by omega), charBytes_symbol (by omega), charBytes_symbol (by omega),
        charBytes_fill]
      refine (decodeLastGroup_two offset (by omega) (by omega) (by omega) (by omega)).trans ?_
      rw [ofNat_eq (b := a) (by omega), ofNat_eq (b := b) (by omega)]
  | case4 a b c rest ih =>
      have ha := a.toNat_lt
      have hb := b.toNat_lt
      have hc := c.toNat_lt
      rw [charBytes_symbol (by omega), charBytes_symbol (by omega), charBytes_symbol (by omega),
        charBytes_symbol (by omega)]
      refine (decodeGroups_group offset (by omega) (by omega) (by omega) (by omega) (ih _)).trans ?_
      rw [ofNat_eq (b := a) (by omega), ofNat_eq (b := b) (by omega), ofNat_eq (b := c) (by omega)]

theorem byteLength_eq_length {cs : List Char} (h : ∀ c ∈ cs, c.utf8Size = 1) :
    byteLength cs = cs.length := by
  induction cs with
  | nil => rfl
  | cons c rest ih =>
      obtain ⟨hc, hrest⟩ := List.forall_mem_cons.1 h
      rw [byteLength_cons, hc, ih hrest, List.length_cons, Nat.add_comm]

/-- Each symbol is a single byte, and so is what fills a group up. -/
theorem IsBase64.length_charBytes {cs : List Char} (h : IsBase64 cs) :
    (charBytes cs).length = cs.length := by
  have hall : (base64Alphabet.all fun c => c.utf8Size = 1) = true := by decide +kernel
  have hsize : ∀ c ∈ base64Alphabet, c.utf8Size = 1 := fun c hc =>
    of_decide_eq_true (List.all_eq_true.1 hall c hc)
  obtain ⟨-, symbols, fills, rfl, -, hsymbols⟩ := h
  rw [Text.length_charBytes]
  refine byteLength_eq_length fun c hc => ?_
  rcases List.mem_append.1 hc with hc | hc
  · exact hsize c (hsymbols c hc)
  · rw [List.eq_of_mem_replicate hc]
    rfl

/-- Only whole groups are written, so no symbol stands alone at the end. -/
theorem strayLastByte?_base64Chars (bytes : List UInt8) :
    strayLastByte? (charBytes (base64Chars bytes)) = none := by
  have hform := isBase64_base64Chars bytes
  have hgroups := hform.groups
  rw [strayLastByte?, hform.length_charBytes, if_neg (by omega)]

/-- **Bytes are read back from their text.** -/
theorem ofBase64_toBase64 (bytes : List UInt8) : ofBase64 (toBase64 bytes) = .ok bytes := by
  have hbytes : utf8 (toBase64 bytes) = charBytes (base64Chars bytes) := by
    rw [toBase64, utf8_eq_charBytes, String.toList_ofList]
  rw [ofBase64, hbytes]
  simp only [strayLastByte?_base64Chars, decodeGroups_base64Chars]

end ShardedSql.Text
