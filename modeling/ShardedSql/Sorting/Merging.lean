/-
**Merging two sequences that are in order.**

Two sequences can be merged from the front, where the smaller of the two first values is next, or
from the back, where the larger of the two last ones is.  Of equal values the one of the left
sequence stays in front.  If the comparison is a total order then both ways give the same.

Main definitions:

* `ShardedSql.Sorting.mergeFront`, `ShardedSql.Sorting.mergeBack` — merging from one end;
* `ShardedSql.Sorting.mergeShorter` — merging from the end that the shorter sequence stands at;
* `ShardedSql.Sorting.mergeEnds` — merging from both ends until they meet in the middle.

Main results:

* `ShardedSql.Sorting.mergeShorter_perm`, `ShardedSql.Sorting.mergeEnds_perm` — **no value is
  lost**, whatever the comparison.
-/

set_option relaxedAutoImplicit false
set_option autoImplicit false

namespace ShardedSql.Sorting

variable {α : Type}

/-! ### From one end -/

/-- Two sequences merged from the front. -/
def mergeFront (lt : α → α → Bool) (l r : List α) : List α := l.merge r fun a b => !lt b a

/-- Two sequences merged from the back. -/
def mergeBack (lt : α → α → Bool) (l r : List α) : List α :=
  (l.reverse.merge r.reverse fun a b => lt b a).reverse

/-- Two sequences merged from the front if the left one is not longer, or else from the back. -/
def mergeShorter (lt : α → α → Bool) (l r : List α) : List α :=
  if l.length ≤ r.length then mergeFront lt l r else mergeBack lt l r

theorem mergeFront_perm (lt : α → α → Bool) (l r : List α) :
    (mergeFront lt l r).Perm (l ++ r) := List.merge_perm_append _

theorem mergeBack_perm (lt : α → α → Bool) (l r : List α) :
    (mergeBack lt l r).Perm (l ++ r) :=
  (List.reverse_perm _).trans
    ((List.merge_perm_append _).trans ((List.reverse_perm l).append (List.reverse_perm r)))

theorem mergeShorter_perm (lt : α → α → Bool) (l r : List α) :
    (mergeShorter lt l r).Perm (l ++ r) := by
  unfold mergeShorter
  split
  · exact mergeFront_perm lt l r
  · exact mergeBack_perm lt l r

/-! ### From both ends -/

/-- The first values of two sequences merged, and what is left of the sequences. -/
def draw (rightFirst : α → α → Bool) : Nat → List α → List α → List α × List α × List α
  | 0, l, r => ([], l, r)
  | _ + 1, [], [] => ([], [], [])
  | k + 1, a :: l, [] => let d := draw rightFirst k l []; (a :: d.1, d.2)
  | k + 1, [], b :: r => let d := draw rightFirst k [] r; (b :: d.1, d.2)
  | k + 1, a :: l, b :: r =>
      if rightFirst a b then let d := draw rightFirst k (a :: l) r; (b :: d.1, d.2)
      else let d := draw rightFirst k l (b :: r); (a :: d.1, d.2)

/-- Two sequences merged from both ends, half of the values from each, with the one that is left
over in the middle.  The halves only overlap if the comparison is not a total order; the sequences
are then merged from the front. -/
def mergeEnds (lt : α → α → Bool) (l r : List α) : List α :=
  let half := (l.length + r.length) / 2
  let front := draw (fun a b => lt b a) half l r
  let back := draw (fun a b => !lt b a) half l.reverse r.reverse
  if l.length ≤ front.2.1.length + back.2.1.length ∧
      r.length ≤ front.2.2.length + back.2.2.length then
    front.1 ++ (front.2.1.take (front.2.1.length + back.2.1.length - l.length) ++
      front.2.2.take (front.2.2.length + back.2.2.length - r.length)) ++ back.1.reverse
  else mergeFront lt l r

theorem draw_spec (rightFirst : α → α → Bool) (k : Nat) (l r : List α) :
    ∃ l₁ r₁, l = l₁ ++ (draw rightFirst k l r).2.1 ∧ r = r₁ ++ (draw rightFirst k l r).2.2 ∧
      (draw rightFirst k l r).1.Perm (l₁ ++ r₁) := by
  induction k generalizing l r with
  | zero => exact ⟨[], [], rfl, rfl, .refl _⟩
  | succ k ih =>
      have takeLeft : ∀ (a : α) (l r : List α), ∃ l₁ r₁,
          a :: l = l₁ ++ (draw rightFirst k l r).2.1 ∧
          r = r₁ ++ (draw rightFirst k l r).2.2 ∧
          (a :: (draw rightFirst k l r).1).Perm (l₁ ++ r₁) := by
        intro a l r
        obtain ⟨l₁, r₁, hl, hr, hp⟩ := ih l r
        exact ⟨a :: l₁, r₁, congrArg (a :: ·) hl, hr, .cons a hp⟩
      have takeRight : ∀ (b : α) (l r : List α), ∃ l₁ r₁,
          l = l₁ ++ (draw rightFirst k l r).2.1 ∧
          b :: r = r₁ ++ (draw rightFirst k l r).2.2 ∧
          (b :: (draw rightFirst k l r).1).Perm (l₁ ++ r₁) := by
        intro b l r
        obtain ⟨l₁, r₁, hl, hr, hp⟩ := ih l r
        exact ⟨l₁, b :: r₁, hl, congrArg (b :: ·) hr,
          (List.Perm.cons b hp).trans List.perm_middle.symm⟩
      cases l with
      | nil =>
          cases r with
          | nil => exact ⟨[], [], rfl, rfl, .refl _⟩
          | cons b r => exact takeRight b [] r
      | cons a l =>
          cases r with
          | nil => exact takeLeft a l []
          | cons b r =>
              simp only [draw]
              split
              · exact takeRight b (a :: l) r
              · exact takeLeft a l (b :: r)

/-- What is between a beginning and an end of a sequence that do not overlap. -/
theorem between_perm {l l₁ l₂ m n : List α} (h₁ : l = l₁ ++ m) (h₂ : l.reverse = l₂ ++ n)
    (h : l.length ≤ m.length + n.length) :
    (l₁ ++ m.take (m.length + n.length - l.length) ++ l₂).Perm l := by
  have hl : l = n.reverse ++ l₂.reverse := by
    have := congrArg List.reverse h₂
    simpa using this
  have hlen₁ := congrArg List.length h₁
  have hlen₂ := congrArg List.length hl
  simp only [List.length_append, List.length_reverse] at hlen₁ hlen₂
  have hdrop : m.drop (m.length + n.length - l.length) = l₂.reverse := by
    have hm : m = l.drop l₁.length := by rw [h₁]; simp
    rw [hm, List.drop_drop, hl, List.length_append, List.length_reverse, List.length_reverse,
      List.length_drop, List.length_append, List.length_reverse, List.length_reverse]
    have : l₁.length + (n.length + l₂.length - l₁.length + n.length - (n.length + l₂.length)) =
        n.reverse.length := by
      rw [List.length_reverse]
      omega
    rw [this, List.drop_left]
  have hsplit : l = l₁ ++ (m.take (m.length + n.length - l.length) ++ l₂.reverse) := by
    rw [← hdrop, List.take_append_drop]
    exact h₁
  have hp : (l₁ ++ m.take (m.length + n.length - l.length) ++ l₂).Perm
      (l₁ ++ (m.take (m.length + n.length - l.length) ++ l₂.reverse)) := by
    rw [List.append_assoc]
    exact ((List.reverse_perm l₂).symm.append_left _).append_left _
  exact hp.trans (.of_eq hsplit.symm)

theorem mergeEnds_perm (lt : α → α → Bool) (l r : List α) :
    (mergeEnds lt l r).Perm (l ++ r) := by
  simp only [mergeEnds]
  split
  · rename_i h
    obtain ⟨l₁, r₁, hl, hr, hp⟩ :=
      draw_spec (fun a b => lt b a) ((l.length + r.length) / 2) l r
    obtain ⟨l₂, r₂, hl', hr', hp'⟩ :=
      draw_spec (fun a b => !lt b a) ((l.length + r.length) / 2) l.reverse r.reverse
    refine ((hp.append_right _).append ((List.reverse_perm _).trans hp')).trans ?_
    refine List.Perm.trans ?_ ((between_perm hl hl' h.1).append (between_perm hr hr' h.2))
    generalize List.take _ _ = m
    generalize List.take _ _ = n
    classical
    rw [List.perm_iff_count]
    intro a
    simp only [List.count_append]
    omega
  · exact mergeFront_perm lt l r

end ShardedSql.Sorting
