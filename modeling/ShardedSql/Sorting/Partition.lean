/-
**Sorting by partition.**

A long sequence is divided by one of its values, which is near the middle: the smaller values come
first and the others after them, each part as it was before.  Both parts are then sorted in the
same way.  If no value is smaller, or if the dividing value is not larger than the one that
divided off the part to the left, then all values that are not larger are in their place.

Short parts are sorted as such, and parts that were divided too often are sorted by runs.

Main definitions:

* `ShardedSql.Sorting.middle` — the place of the dividing value;
* `ShardedSql.Sorting.divide` — the two parts;
* `ShardedSql.Sorting.byPartition` — the sort.

Main results:

* `ShardedSql.Sorting.byPartition_perm` — **no value is lost**, whatever the comparison.
-/

import ShardedSql.Sorting.Runs

set_option relaxedAutoImplicit false
set_option autoImplicit false

namespace ShardedSql.Sorting

variable {α : Type}

/-! ### The dividing value -/

/-- Which of three places holds the middle one of their values. -/
def middleOf (less : Nat → Nat → Bool) (a b c : Nat) : Nat :=
  if less a b == less a c then if less b c == less a b then b else c else a

/-- The place of a middle value of the three parts of length `n` that begin at some places: of the
first values of short parts, and of middle values of longer ones. -/
def middleFrom (less : Nat → Nat → Bool) : Nat → Nat → Nat → Nat → Nat → Nat
  | 0, _, a, b, c => middleOf less a b c
  | k + 1, n, a, b, c =>
      if 8 ≤ n then
        let m := n / 8
        let within (i : Nat) := middleFrom less k m i (i + m * 4) (i + m * 7)
        middleOf less (within a) (within b) (within c)
      else middleOf less a b c

/-- The place of a value near the middle of a sequence. -/
def middle (lt : α → α → Bool) (xs : List α) : Nat :=
  let values := xs.toArray
  let less (i j : Nat) : Bool :=
    match values[i]?, values[j]? with
    | some a, some b => lt a b
    | _, _ => false
  let m := xs.length / 8
  middleFrom less m m 0 (m * 4) (m * 7)

/-! ### The parts -/

/-- The values that go to the left and the others, each as they were before.  The dividing value,
at a place of its own, goes where it is told to. -/
def divide (goesLeft : α → Bool) (place : Nat) (placeLeft : Bool) (xs : List α) :
    List α × List α :=
  let parts := xs.zipIdx.partition fun p => if p.2 = place then placeLeft else goesLeft p.1
  (parts.1.map (·.1), parts.2.map (·.1))

/-- A sequence in order, divided at most `k` times in a row.  It stands to the right of a value
that divided it off, if there is one. -/
def byPartitionUpTo (lt : α → α → Bool) : Nat → Option α → List α → List α
  | 0, _, xs =>
      if xs.length ≤ shortLength then short lt xs else byRuns ⟨lt, true, id⟩ xs
  | k + 1, bound, xs =>
      if xs.length ≤ shortLength then short lt xs
      else
        match xs[middle lt xs]? with
        | none => xs
        | some pivot =>
            let parts := divide (fun x => lt x pivot) (middle lt xs) false xs
            if parts.1.isEmpty || bound.any fun b => !lt b pivot then
              let parts := divide (fun x => !lt pivot x) (middle lt xs) true xs
              parts.1 ++ byPartitionUpTo lt k none parts.2
            else
              byPartitionUpTo lt k bound parts.1 ++ byPartitionUpTo lt k (some pivot) parts.2

/-- A sequence in order. -/
def byPartition (lt : α → α → Bool) (xs : List α) : List α :=
  byPartitionUpTo lt (2 * Nat.log2 xs.length) none xs

theorem divide_perm (goesLeft : α → Bool) (place : Nat) (placeLeft : Bool) (xs : List α) :
    ((divide goesLeft place placeLeft xs).1 ++ (divide goesLeft place placeLeft xs).2).Perm
      xs := by
  simp only [divide, List.partition_eq_filter_filter, ← List.map_append]
  refine ((List.filter_append_perm _ _).map _).trans ?_
  simp

theorem byPartitionUpTo_perm (lt : α → α → Bool) (k : Nat) (bound : Option α) (xs : List α) :
    (byPartitionUpTo lt k bound xs).Perm xs := by
  induction k generalizing bound xs with
  | zero =>
      unfold byPartitionUpTo
      split
      · exact short_perm ..
      · exact byRuns_perm (m := ⟨lt, true, id⟩) (fun _ => .refl _) xs
  | succ k ih =>
      unfold byPartitionUpTo
      split
      · exact short_perm ..
      · split
        · exact .refl _
        · dsimp only
          split
          · exact ((ih _ _).append_left _).trans (divide_perm ..)
          · exact ((ih _ _).append (ih _ _)).trans (divide_perm ..)

theorem byPartition_perm (lt : α → α → Bool) (xs : List α) : (byPartition lt xs).Perm xs :=
  byPartitionUpTo_perm ..

end ShardedSql.Sorting
