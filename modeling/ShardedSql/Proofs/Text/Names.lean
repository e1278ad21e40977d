/-
**Names that differ.**

Names are compared without regard to the case of ASCII letters, so names that are different texts
may still be one name.

Main definitions:

* `ShardedSql.Text.AllDiffer` — no two of some names are the same one, ignoring case.

Main results:

* `ShardedSql.Text.AllDiffer.eq_of_sameName` — such names are the same only if they are equal;
* `ShardedSql.Text.AllDiffer.findIdx?_eq_some` — **each of them is found at its place**, in whatever
  case it is looked for.
-/

import Mathlib.Data.List.Pairwise
import ShardedSql.Text.Ascii

set_option relaxedAutoImplicit false
set_option autoImplicit false

namespace ShardedSql.Text

variable {names : List String} {a b : String}

/-- No two of some names are the same one. -/
def AllDiffer (names : List String) : Prop := names.Pairwise fun a b => sameName a b = false

instance (names : List String) : Decidable (AllDiffer names) :=
  inferInstanceAs (Decidable (names.Pairwise _))

namespace AllDiffer

theorem nodup (h : AllDiffer names) : names.Nodup := by
  refine h.imp fun {a b} hab heq => ?_
  rw [heq, sameName_refl] at hab
  cases hab

theorem perm (h : AllDiffer names) {order : List String} (horder : order.Perm names) :
    AllDiffer order :=
  (horder.pairwise_iff fun {a b} hab => (sameName_comm b a).trans hab).2 h

theorem eq_of_sameName (h : AllDiffer names) (ha : a ∈ names) (hb : b ∈ names)
    (hab : sameName a b = true) : a = b := by
  by_contra hne
  have hsymm : Std.Symm fun a b : String => sameName a b = false :=
    ⟨fun a b hab => (sameName_comm b a).trans hab⟩
  have hapart : sameName a b = false := List.Pairwise.forall h ha hb hne
  rw [hab] at hapart
  cases hapart

/-- **Each of the names is found at its place.** -/
theorem findIdx?_eq_some (h : AllDiffer names) {i : Nat} (hi : names[i]? = some a)
    (hab : sameName a b = true) : names.findIdx? (fun c => sameName c b) = some i := by
  obtain ⟨hlt, rfl⟩ := List.getElem?_eq_some_iff.1 hi
  refine List.findIdx?_eq_some_iff_getElem.2 ⟨hlt, hab, fun j hji hj => ?_⟩
  -- an earlier name that is found is the same as this one
  have hsame : sameName names[j] names[i] = true :=
    sameName_trans hj ((sameName_comm ..).trans hab)
  have hapart := List.pairwise_iff_getElem.1 h j i (Nat.lt_trans hji hlt) hlt hji
  rw [hsame] at hapart
  cases hapart

end AllDiffer

end ShardedSql.Text
