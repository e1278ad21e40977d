/-
**Integers that a word of 64 bits holds with a sign.**

Calculations are made on integers without a limit; where a result has to be a word again, it is
either refused when it is too large or too small, or the nearest integer that fits takes its place.

Main definitions:

* `ShardedSql.Signed.least`, `ShardedSql.Signed.greatest` — the ends of the integers that fit;
* `ShardedSql.Signed.word?` — the word for an integer that fits;
* `ShardedSql.Signed.held` — the nearest integer that fits.

Main results:

* `ShardedSql.Signed.word?_eq_some_iff` — **a word stands for exactly one integer, and each integer
  that fits has a word**;
* `ShardedSql.Signed.held_of_fits` — an integer that fits is held as it is.
-/

set_option relaxedAutoImplicit false
set_option autoImplicit false

namespace ShardedSql.Signed

/-- The least integer that fits. -/
def least : Int := -9223372036854775808

/-- The greatest integer that fits. -/
def greatest : Int := 9223372036854775807

/-- The word for an integer, when there is one. -/
def word? (n : Int) : Option Int64 :=
  if least ≤ n ∧ n ≤ greatest then some (Int64.ofInt n) else none

/-- The integer that fits and is nearest. -/
def held (n : Int) : Int := max least (min n greatest)

theorem toInt_fits (w : Int64) : least ≤ w.toInt ∧ w.toInt ≤ greatest := by
  have hl := w.le_toInt
  have hg := w.toInt_lt
  simp only [least, greatest]
  omega

theorem word?_eq_some_iff {n : Int} {w : Int64} : word? n = some w ↔ w.toInt = n := by
  constructor
  · intro h
    simp only [word?] at h
    split at h
    · rename_i fits
      simp only [least, greatest] at fits
      rw [← Option.some.inj h]
      exact Int64.toInt_ofInt_of_le (by omega) (by omega)
    · cases h
  · rintro rfl
    simp [word?, toInt_fits]

theorem held_fits (n : Int) : least ≤ held n ∧ held n ≤ greatest := by
  simp only [held, least, greatest]
  omega

theorem held_of_fits {n : Int} (h : least ≤ n ∧ n ≤ greatest) : held n = n := by
  simp only [held]
  omega

end ShardedSql.Signed
