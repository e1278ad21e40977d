/-
**Sorting short sequences.**

A short sequence is cut into halves.  Each half is sorted by insertion, after its first four values
were brought in order if both halves have as many, and the halves are merged from both ends.

Main definitions:

* `ShardedSql.Sorting.four` — four values in order;
* `ShardedSql.Sorting.half` — a half in order;
* `ShardedSql.Sorting.short` — the sort;
* `ShardedSql.Sorting.shortLength` — up to which length it is used.

Main results:

* `ShardedSql.Sorting.short_perm` — **no value is lost**, whatever the comparison.
-/

import ShardedSql.Sorting.Insertion
import ShardedSql.Sorting.Merging

set_option relaxedAutoImplicit false
set_option autoImplicit false

namespace ShardedSql.Sorting

variable {α : Type}

/-- The length up to which a sequence counts as short. -/
def shortLength : Nat := 32

/-- Two values in order. -/
def two (lt : α → α → Bool) (x y : α) : α × α := if lt y x then (y, x) else (x, y)

/-- Four values in order: two pairs in order, then the smallest and the largest of all, then the
two between them. -/
def four (lt : α → α → Bool) (w x y z : α) : List α :=
  let (a, b) := two lt w x
  let (c, d) := two lt y z
  let (least, most, between) :=
    match lt c a, lt d b with
    | false, false => (a, d, two lt b c)
    | false, true => (a, b, two lt c d)
    | true, false => (c, d, two lt a b)
    | true, true => (c, b, two lt a d)
  [least, between.1, between.2, most]

/-- A half of a sequence in order. -/
def half (lt : α → α → Bool) (fours : Bool) : List α → List α
  | w :: x :: y :: z :: rest =>
      if fours then insertAll lt (four lt w x y z) rest
      else insertion lt (w :: x :: y :: z :: rest)
  | xs => insertion lt xs

/-- A short sequence in order. -/
def short (lt : α → α → Bool) (xs : List α) : List α :=
  if xs.length < 2 then xs
  else
    let fours := decide (8 ≤ xs.length)
    mergeEnds lt (half lt fours (xs.take (xs.length / 2)))
      (half lt fours (xs.drop (xs.length / 2)))

theorem two_perm (lt : α → α → Bool) (x y : α) (rest : List α) :
    ((two lt x y).1 :: (two lt x y).2 :: rest).Perm (x :: y :: rest) := by
  unfold two
  split
  · exact .swap _ _ _
  · exact .refl _

theorem four_perm (lt : α → α → Bool) (w x y z : α) : (four lt w x y z).Perm [w, x, y, z] := by
  have hl : ∀ s, ((two lt w x).1 :: (two lt w x).2 :: s).Perm (w :: x :: s) := two_perm lt w x
  have hr : ∀ s, ((two lt y z).1 :: (two lt y z).2 :: s).Perm (y :: z :: s) := two_perm lt y z
  have pairs : [(two lt w x).1, (two lt w x).2, (two lt y z).1, (two lt y z).2].Perm
      [w, x, y, z] := (hl _).trans (.cons _ (.cons _ (hr [])))
  refine List.Perm.trans ?_ pairs
  simp only [four]
  generalize (two lt w x).1 = a
  generalize (two lt w x).2 = b
  generalize (two lt y z).1 = c
  generalize (two lt y z).2 = d
  have move : ∀ (least most p q : α), [least, p, q, most].Perm [a, b, c, d] →
      [least, (two lt p q).1, (two lt p q).2, most].Perm [a, b, c, d] := fun _ _ p q h =>
    (List.Perm.cons _ (two_perm lt p q _)).trans h
  classical
  cases lt c a <;> cases lt d b <;> refine move _ _ _ _ ?_ <;> rw [List.perm_iff_count] <;>
    intro e <;> simp only [List.count_cons, List.count_nil] <;> omega

theorem half_perm (lt : α → α → Bool) (fours : Bool) (xs : List α) :
    (half lt fours xs).Perm xs := by
  unfold half
  split
  · split
    · exact (insertAll_perm ..).trans ((four_perm ..).append_right _)
    · exact insertion_perm ..
  · exact insertion_perm ..

theorem short_perm (lt : α → α → Bool) (xs : List α) : (short lt xs).Perm xs := by
  unfold short
  split
  · exact .refl _
  · refine (mergeEnds_perm ..).trans ?_
    refine ((half_perm ..).append (half_perm ..)).trans ?_
    rw [List.take_append_drop]

end ShardedSql.Sorting
