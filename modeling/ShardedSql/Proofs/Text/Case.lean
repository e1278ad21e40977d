/-
**One name has one lower case.**

Names compare without regard to the case of ASCII letters, but tables are looked up by the lower
case of the full mapping.  That mapping looks at the characters around a capital sigma, of which it
only asks whether they have a case.  An ASCII letter has one and so has its small letter, so texts
that are the same name have the same lower case.

Main results:

* `ShardedSql.Text.lowerChars_map_toLower` — the letters of ASCII may be lowered first;
* `ShardedSql.Text.lowercase_eq_of_sameName` — **the same name has the same lower case**;
* `ShardedSql.Text.foldCase_eq_iff` — and the same text with its ASCII letters lowered.
-/

import ShardedSql.Text.Ascii
import ShardedSql.Text.Case

set_option relaxedAutoImplicit false
set_option autoImplicit false

namespace ShardedSql.Text

/-! ### Letters of ASCII -/

theorem toLower_eq_self {c : Char} (h : c.isUpper = false) : c.toLower = c := by
  have hnot : ¬ (c.val ≥ 'A'.val ∧ c.val ≤ 'Z'.val) := of_decide_eq_false h
  exact dif_neg hnot

/-- What holds of the capital letters of ASCII, and of characters that are their own small letter,
holds of every character. -/
theorem forall_of_isUpper {P : Char → Prop} (hself : ∀ c : Char, c.toLower = c → P c)
    (hupper : ∀ i < 26, P (Char.ofNat (65 + i))) (c : Char) : P c := by
  cases hc : c.isUpper with
  | false => exact hself c (toLower_eq_self hc)
  | true =>
      have hrange : c.val ≥ 'A'.val ∧ c.val ≤ 'Z'.val := of_decide_eq_true hc
      have hlow : 65 ≤ c.toNat := hrange.1
      have hhigh : c.toNat ≤ 90 := hrange.2
      have hi := hupper (c.toNat - 65) (by omega)
      rwa [show 65 + (c.toNat - 65) = c.toNat by omega, Char.ofNat_toNat] at hi

/-- A character has a case when its small letter does. -/
theorem isCased_toLower (c : Char) : isCased c.toLower = isCased c :=
  forall_of_isUpper (P := fun c => isCased c.toLower = isCased c)
    (fun _ h => by rw [h]) (by decide +kernel) c

/-- A character is skipped when its small letter is. -/
theorem isCaseIgnorable_toLower (c : Char) : isCaseIgnorable c.toLower = isCaseIgnorable c :=
  forall_of_isUpper (P := fun c => isCaseIgnorable c.toLower = isCaseIgnorable c)
    (fun _ h => by rw [h]) (by decide +kernel) c

theorem lowerChar_toLower (c : Char) : lowerChar c.toLower = lowerChar c :=
  forall_of_isUpper (P := fun c => lowerChar c.toLower = lowerChar c)
    (fun _ h => by rw [h]) (by decide +kernel) c

/-- No letter of ASCII is a sigma. -/
theorem toNat_toLower_eq_sigma_iff (c : Char) : c.toLower.toNat = 0x3A3 ↔ c.toNat = 0x3A3 :=
  forall_of_isUpper (P := fun c => c.toLower.toNat = 0x3A3 ↔ c.toNat = 0x3A3)
    (fun _ h => by rw [h]) (by decide +kernel) c

/-! ### Texts -/

theorem casedAhead_map_toLower (cs : List Char) :
    casedAhead (cs.map Char.toLower) = casedAhead cs := by
  unfold casedAhead
  induction cs with
  | nil => rfl
  | cons c rest ih =>
      rw [List.map_cons, List.dropWhile_cons, List.dropWhile_cons, isCaseIgnorable_toLower]
      cases isCaseIgnorable c with
      | true => exact ih
      | false => exact isCased_toLower c

/-- The letters of ASCII may be lowered first, also those before. -/
theorem lowerChars_map_toLower (before cs : List Char) :
    lowerChars (before.map Char.toLower) (cs.map Char.toLower) = lowerChars before cs := by
  induction cs generalizing before with
  | nil => rfl
  | cons c rest ih =>
      have hrest := ih (c :: before)
      rw [List.map_cons] at hrest
      simp only [List.map_cons, lowerChars, toNat_toLower_eq_sigma_iff, lowerChar_toLower,
        casedAhead_map_toLower, hrest]

/-- **The same name has the same lower case.** -/
theorem lowercase_eq_of_sameName {a b : String} (h : sameName a b = true) :
    lowercase a = lowercase b := by
  have ha := lowerChars_map_toLower [] a.toList
  have hb := lowerChars_map_toLower [] b.toList
  rw [(sameName_iff a b).1 h] at ha
  rw [lowercase, lowercase, ← ha, ← hb]

/-- Texts are the same name when they are equal with their ASCII letters lowered. -/
theorem foldCase_eq_iff {a b : String} : foldCase a = foldCase b ↔ sameName a b = true := by
  rw [sameName_iff, foldCase, foldCase, String.ofList_inj]

end ShardedSql.Text
