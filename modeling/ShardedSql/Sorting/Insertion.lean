/-
**Sorting by insertion.**

Each value moves forward past those that it is smaller than and stops at the first one that it is
not smaller than.

Main definitions:

* `ShardedSql.Sorting.insertBack` — puts a value in among others, the last of which comes first;
* `ShardedSql.Sorting.insertAll` — puts values in one after another;
* `ShardedSql.Sorting.insertion` — the sort.

Main results:

* `ShardedSql.Sorting.insertAll_perm`, `ShardedSql.Sorting.insertion_perm` — **no value is lost**,
  whatever the comparison.
-/

set_option relaxedAutoImplicit false
set_option autoImplicit false

namespace ShardedSql.Sorting

variable {α : Type}

/-- Puts a value in among others, the last of which comes first. -/
def insertBack (lt : α → α → Bool) (x : α) : List α → List α
  | [] => [x]
  | y :: ys => if lt x y then y :: insertBack lt x ys else x :: y :: ys

/-- Puts values in among others, one after another. -/
def insertAll (lt : α → α → Bool) (sorted xs : List α) : List α :=
  (xs.foldl (fun back x => insertBack lt x back) sorted.reverse).reverse

/-- Values in order, each one put in among those before it. -/
def insertion (lt : α → α → Bool) (xs : List α) : List α := insertAll lt [] xs

theorem insertBack_perm (lt : α → α → Bool) (x : α) (ys : List α) :
    (insertBack lt x ys).Perm (x :: ys) := by
  induction ys with
  | nil => exact .refl _
  | cons y ys ih =>
      unfold insertBack
      split
      · exact (List.Perm.cons y ih).trans (.swap _ _ _)
      · exact .refl _

theorem foldl_insertBack_perm (lt : α → α → Bool) (xs back : List α) :
    (xs.foldl (fun back x => insertBack lt x back) back).Perm (back ++ xs) := by
  induction xs generalizing back with
  | nil => simp
  | cons x xs ih =>
      refine (ih _).trans ?_
      exact ((insertBack_perm lt x back).append_right xs).trans List.perm_middle.symm

theorem insertAll_perm (lt : α → α → Bool) (sorted xs : List α) :
    (insertAll lt sorted xs).Perm (sorted ++ xs) :=
  (List.reverse_perm _).trans
    ((foldl_insertBack_perm lt xs _).trans ((List.reverse_perm sorted).append_right xs))

theorem insertion_perm (lt : α → α → Bool) (xs : List α) : (insertion lt xs).Perm xs :=
  insertAll_perm lt [] xs

end ShardedSql.Sorting
