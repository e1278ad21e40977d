/-
**Bytes of texts, and the slices between two of their places.**

A place in a text is a number of bytes.  It can be cut at when no character lies across it, and a
slice between two such places consists of the bytes between them.

Main definitions:

* `ShardedSql.Text.charBytes` — the bytes of some characters;
* `ShardedSql.Text.IsBoundary` — no character lies across a place.

Main results:

* `ShardedSql.Text.utf8_eq_charBytes` — the bytes of a text are those of its characters;
* `ShardedSql.Text.exists_slice?_iff` — **a slice exists exactly between two boundaries in order**;
* `ShardedSql.Text.charBytes_slice?` — **its bytes are those between the two places**.
-/

import ShardedSql.Text.Offset
import ShardedSql.Text.Utf8

set_option relaxedAutoImplicit false
set_option autoImplicit false

namespace ShardedSql.Text

/-! ### Bytes -/

/-- The bytes of some characters. -/
def charBytes (cs : List Char) : List UInt8 := cs.flatMap String.utf8EncodeChar

@[simp] theorem charBytes_append (a b : List Char) :
    charBytes (a ++ b) = charBytes a ++ charBytes b := by
  simp [charBytes]

@[simp] theorem length_charBytes (cs : List Char) : (charBytes cs).length = byteLength cs := by
  induction cs with
  | nil => rfl
  | cons c rest ih =>
      rw [byteLength_cons, ← ih]
      simp [charBytes]

/-- The loop that lists the bytes of an array gives those from the place on that it has reached. -/
theorem toList_loop_eq (bs : ByteArray) (i : Nat) (done : List UInt8) :
    ByteArray.toList.loop bs i done = done.reverse ++ bs.data.toList.drop i := by
  fun_induction ByteArray.toList.loop bs i done with
  | case1 i done hlt ih =>
      have hlen : i < bs.data.toList.length := by simpa using hlt
      have hget : bs.get! i = bs.data.toList[i] := by
        have : bs.get! i = bs.data[i]! := by cases bs; rfl
        rw [this, getElem!_pos bs.data i (by simpa using hlen)]
        simp
      rw [ih, List.drop_eq_getElem_cons hlen, hget, List.reverse_cons, List.append_assoc]
      rfl
  | case2 i done hlt =>
      have hlen : bs.data.toList.length ≤ i := by simpa using Nat.le_of_not_lt hlt
      rw [List.drop_eq_nil_of_le hlen, List.append_nil]

/-- The bytes of a text are those of its characters, one after another. -/
theorem utf8_eq_charBytes (s : String) : utf8 s = charBytes s.toList := by
  have hloop := toList_loop_eq s.toByteArray 0 []
  have hdata : s.toByteArray.data.toList = charBytes s.toList := by
    rw [← String.utf8Encode_toList, List.utf8Encode, List.toList_data_toByteArray]
    rfl
  calc utf8 s = ByteArray.toList.loop s.toByteArray 0 [] := rfl
    _ = s.toByteArray.data.toList := by simpa using hloop
    _ = charBytes s.toList := hdata

/-- The size of a text is the number of its bytes. -/
theorem utf8ByteSize_eq_byteLength (s : String) : s.utf8ByteSize = byteLength s.toList := by
  rw [← length_charBytes, ← String.size_toByteArray, ← String.utf8Encode_toList, List.utf8Encode,
    ← ByteArray.size_data, ← Array.length_toList, List.toList_data_toByteArray]
  rfl

@[simp] theorem length_utf8 (s : String) : (utf8 s).length = s.utf8ByteSize := by
  rw [utf8_eq_charBytes, length_charBytes, utf8ByteSize_eq_byteLength]

/-! ### Boundaries -/

/-- No character lies across a place. -/
def IsBoundary (n : Nat) (cs : List Char) : Prop :=
  ∃ before after, cs = before ++ after ∧ byteLength before = n

theorem isBoundary_zero (cs : List Char) : IsBoundary 0 cs := ⟨[], cs, rfl, rfl⟩

theorem isBoundary_byteLength (cs : List Char) : IsBoundary (byteLength cs) cs :=
  ⟨cs, [], (List.append_nil cs).symm, rfl⟩

/-- Splitting after the bytes of some characters gives these characters. -/
theorem splitAtByte_byteLength (before after : List Char) :
    splitAtByte (byteLength before) (before ++ after) = some (before, after) := by
  induction before with
  | nil => cases after <;> simp [splitAtByte]
  | cons c rest ih =>
      have hc := c.utf8Size_pos
      have hne : c.utf8Size + byteLength rest ≠ 0 := by omega
      rw [byteLength_cons, List.cons_append, splitAtByte, if_neg hne, if_pos (by omega),
        Nat.add_sub_cancel_left, ih]
      rfl

/-! ### Slices -/

/-- A slice lies between two parts of the text. -/
theorem slice?_eq_some_iff {start stop : Nat} {cs part : List Char} :
    slice? start stop cs = some part ↔
      ∃ before after, cs = before ++ part ++ after ∧ byteLength before = start ∧
        start + byteLength part = stop := by
  constructor
  · intro h
    unfold slice? at h
    cases hfirst : splitAtByte start cs with
    | none => simp [hfirst] at h
    | some p =>
        obtain ⟨before, rest⟩ := p
        simp only [hfirst, Option.bind_eq_bind, Option.bind_some] at h
        split at h
        · cases h
        · rename_i hle
          cases hsecond : splitAtByte (stop - start) rest with
          | none => simp [hsecond] at h
          | some q =>
              obtain ⟨found, after⟩ := q
              simp only [hsecond, Option.bind_some, Option.some.injEq] at h
              subst h
              obtain ⟨hcs, hbefore⟩ := splitAtByte_append hfirst
              obtain ⟨hrest, hpart⟩ := splitAtByte_append hsecond
              refine ⟨before, after, ?_, hbefore, by omega⟩
              rw [hcs, hrest, List.append_assoc]
  · rintro ⟨before, after, rfl, rfl, rfl⟩
    have hfirst := splitAtByte_byteLength before (part ++ after)
    have hsecond := splitAtByte_byteLength part after
    have hle : ¬ byteLength before + byteLength part < byteLength before := by omega
    rw [slice?, List.append_assoc, hfirst]
    simp only [Option.bind_eq_bind, Option.bind_some, if_neg hle, Nat.add_sub_cancel_left, hsecond]

/-- **A slice exists exactly between two boundaries in order.** -/
theorem exists_slice?_iff {start stop : Nat} {cs : List Char} :
    (∃ part, slice? start stop cs = some part) ↔
      start ≤ stop ∧ IsBoundary start cs ∧ IsBoundary stop cs := by
  constructor
  · rintro ⟨part, h⟩
    obtain ⟨before, after, hcs, hbefore, hpart⟩ := slice?_eq_some_iff.1 h
    refine ⟨by omega, ⟨before, part ++ after, ?_, hbefore⟩, ⟨before ++ part, after, hcs, ?_⟩⟩
    · rw [hcs, List.append_assoc]
    · rw [byteLength_append, hbefore, hpart]
  · rintro ⟨hle, ⟨a, b, hab, ha⟩, ⟨c, d, hcd, hc⟩⟩
    rcases List.append_eq_append_iff.1 (hab.symm.trans hcd) with ⟨m, hm, hb⟩ | ⟨m, hm, hd⟩
    · refine ⟨m, slice?_eq_some_iff.2 ⟨a, d, ?_, ha, ?_⟩⟩
      · rw [hab, hb, List.append_assoc]
      · rw [← hc, hm, byteLength_append, ha]
    · -- the earlier place is not the earlier one in the text, so the two are the same place
      have hzero : byteLength m = 0 := by
        have hlen : byteLength a = byteLength c + byteLength m := by rw [hm, byteLength_append]
        omega
      refine ⟨[], slice?_eq_some_iff.2 ⟨a, b, by rw [hab, List.append_nil], ha, ?_⟩⟩
      have hlen : byteLength a = byteLength c + byteLength m := by rw [hm, byteLength_append]
      rw [byteLength_nil]
      omega

/-- **The bytes of a slice are those between its two places.** -/
theorem charBytes_slice? {start stop : Nat} {cs part : List Char}
    (h : slice? start stop cs = some part) :
    charBytes part = ((charBytes cs).drop start).take (stop - start) := by
  obtain ⟨before, after, rfl, rfl, rfl⟩ := slice?_eq_some_iff.1 h
  rw [charBytes_append, charBytes_append, List.append_assoc]
  have hdrop : (charBytes before ++ (charBytes part ++ charBytes after)).drop (byteLength before) =
      charBytes part ++ charBytes after := by
    rw [← length_charBytes, List.drop_left]
  rw [hdrop, Nat.add_sub_cancel_left, ← length_charBytes part, List.take_left]

end ShardedSql.Text
