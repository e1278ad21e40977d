/-
**Ranges of code points.**

A property of characters is a table: the ranges of the code points that have it, both ends
included.  The tables follow version 17.0 of Unicode.

Main definitions:

* `ShardedSql.Text.inRanges` — whether a code point is in one of some ranges;
* `ShardedSql.Text.ascending` — the ranges follow one another with a gap between them.

Main results:

* `ShardedSql.Text.inRanges_iff` — what being in one of the ranges means;
* `ShardedSql.Text.not_inRanges_of_lt` — **a code point before the first of ascending ranges is in
  none of them**.
-/

set_option relaxedAutoImplicit false
set_option autoImplicit false

namespace ShardedSql.Text

/-- Whether a code point is in one of the ranges. -/
def inRanges (ranges : List (Nat × Nat)) (n : Nat) : Bool :=
  ranges.any fun r => r.1 ≤ n && n ≤ r.2

/-- The ranges, which begin at `low` or after it, follow one another with a gap between them. -/
def ascendingFrom (low : Nat) : List (Nat × Nat) → Bool
  | [] => true
  | r :: rest => low ≤ r.1 && r.1 ≤ r.2 && ascendingFrom (r.2 + 2) rest

/-- The ranges follow one another with a gap between them. -/
def ascending (ranges : List (Nat × Nat)) : Bool := ascendingFrom 0 ranges

theorem inRanges_iff (ranges : List (Nat × Nat)) (n : Nat) :
    inRanges ranges n = true ↔ ∃ r ∈ ranges, r.1 ≤ n ∧ n ≤ r.2 := by
  simp [inRanges]

theorem not_inRanges_of_lt {low n : Nat} {ranges : List (Nat × Nat)}
    (h : ascendingFrom low ranges = true) (hn : n < low) : inRanges ranges n = false := by
  induction ranges generalizing low with
  | nil => rfl
  | cons r rest ih =>
      simp only [ascendingFrom, Bool.and_eq_true, decide_eq_true_eq] at h
      have hr : ¬ r.1 ≤ n := by omega
      have hrest := ih h.2 (by omega)
      simp only [inRanges, List.any_cons] at hrest ⊢
      simp [hr, hrest]

end ShardedSql.Text
