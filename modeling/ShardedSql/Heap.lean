/-
**Binary heaps: trees whose smallest value is at the top.**

The places of a heap are numbered row by row from the top, and a heap of `n` values fills the
first `n` of them.  A value that is added takes the next place and rises while it is smaller than
the one above it.  When the top is taken away the last value leaves its place, the smaller of the
two values below a gap moves up into it until the gap is at the bottom, and the last value rises
from there.

Main definitions:

* `ShardedSql.Heap` — the trees;
* `ShardedSql.Heap.toList`, `ShardedSql.Heap.size` — the values and their number;
* `ShardedSql.Heap.push` — adds a value;
* `ShardedSql.Heap.pop` — takes the top away.

Main results:

* `ShardedSql.Heap.push_perm`, `ShardedSql.Heap.pop_perm` — **no value is lost**, whatever the
  comparison;
* `ShardedSql.Heap.size_push`, `ShardedSql.Heap.size_pop` — the number of values;
* `ShardedSql.Heap.pop_eq_none_iff` — there is a top to take away unless the heap is empty.
-/

set_option relaxedAutoImplicit false
set_option autoImplicit false

namespace ShardedSql

/-- A binary tree of values. -/
inductive Heap (α : Type) where
  | empty
  | node (top : α) (left right : Heap α)
  deriving Repr, DecidableEq, Inhabited

namespace Heap

variable {α : Type}

/-! ### The values of a tree -/

/-- The values of a tree, each before those below it. -/
def toList : Heap α → List α
  | .empty => []
  | .node x l r => x :: (l.toList ++ r.toList)

/-- The number of values. -/
def size : Heap α → Nat
  | .empty => 0
  | .node _ l r => l.size + r.size + 1

/-- The value at the top. -/
def top? : Heap α → Option α
  | .empty => none
  | .node x _ _ => some x

@[simp] theorem length_toList (t : Heap α) : t.toList.length = t.size := by
  induction t with
  | empty => rfl
  | node x l r hl hr => simp [toList, size, hl, hr]

theorem top?_eq_none_iff {t : Heap α} : t.top? = none ↔ t = .empty := by
  cases t <;> simp [top?]

/-! ### Places -/

/-- The binary digits of a number but the highest, the lowest first, at most `k` of them. -/
def lowDigits : Nat → Nat → List Bool
  | 0, _ => []
  | k + 1, n => if n ≤ 1 then [] else (n % 2 == 1) :: lowDigits k (n / 2)

/-- The turns from the top, which has number 1, to a place with a number; `true` goes right. -/
def turns (n : Nat) : List Bool := (lowDigits n n).reverse

/-! ### Rising -/

/-- A tree in which a value is on its way up. -/
inductive Rise (α : Type) where
  /-- The value has found its place in a tree. -/
  | settled (t : Heap α)
  /-- The value stands at the top, over two trees. -/
  | rising (left right : Heap α)

/-- The tree, with the value that was on its way up. -/
def Rise.tree (x : α) : Rise α → Heap α
  | .settled t => t
  | .rising l r => .node x l r

/-- The way on of a value from the left, past the value above it if it is smaller. -/
def Rise.fromLeft (le : α → α → Bool) (x above : α) (right : Heap α) : Rise α → Rise α
  | .settled l => .settled (.node above l right)
  | .rising a b =>
      if le above x then .settled (.node above (.node x a b) right)
      else .rising (.node above a b) right

/-- The way on of a value from the right, past the value above it if it is smaller. -/
def Rise.fromRight (le : α → α → Bool) (x above : α) (left : Heap α) : Rise α → Rise α
  | .settled r => .settled (.node above left r)
  | .rising a b =>
      if le above x then .settled (.node above left (.node x a b))
      else .rising left (.node above a b)

theorem Rise.toList_fromLeft (le : α → α → Bool) (x above : α) (right : Heap α) (u : Rise α) :
    ((u.fromLeft le x above right).tree x).toList.Perm
      (above :: ((u.tree x).toList ++ right.toList)) := by
  cases u with
  | settled l => exact .refl _
  | rising a b =>
      by_cases h : le above x
      · simp only [fromLeft, h, if_true]
        exact .refl _
      · simp only [fromLeft, h]
        exact .swap _ _ _

theorem Rise.toList_fromRight (le : α → α → Bool) (x above : α) (left : Heap α) (u : Rise α) :
    ((u.fromRight le x above left).tree x).toList.Perm
      (above :: (left.toList ++ (u.tree x).toList)) := by
  cases u with
  | settled r => exact .refl _
  | rising a b =>
      by_cases h : le above x
      · simp only [fromRight, h, if_true]
        exact .refl _
      · simp only [fromRight, h]
        refine (List.Perm.cons x List.perm_middle).trans ?_
        exact (List.Perm.swap _ _ _).trans (.cons _ List.perm_middle.symm)

/-! ### Adding a value -/

/-- Puts a value where the turns lead to, and lets it rise. -/
def place (le : α → α → Bool) (x : α) : Heap α → List Bool → Rise α
  | .empty, _ => .rising .empty .empty
  | .node v l r, ts =>
      if ts.headD false then (place le x r ts.tail).fromRight le x v l
      else (place le x l ts.tail).fromLeft le x v r

/-- Adds a value. -/
def push (le : α → α → Bool) (x : α) (t : Heap α) : Heap α :=
  (place le x t (turns (t.size + 1))).tree x

theorem place_perm (le : α → α → Bool) (x : α) (t : Heap α) (ts : List Bool) :
    ((place le x t ts).tree x).toList.Perm (x :: t.toList) := by
  induction t generalizing ts with
  | empty => exact .refl _
  | node v l r hl hr =>
      unfold place
      split
      · refine (Rise.toList_fromRight ..).trans ?_
        refine (List.Perm.cons v ((hr _).append_left _)).trans ?_
        exact (List.Perm.cons v List.perm_middle).trans (.swap _ _ _)
      · refine (Rise.toList_fromLeft ..).trans ?_
        exact (List.Perm.cons v ((hl _).append_right _)).trans (.swap _ _ _)

theorem push_perm (le : α → α → Bool) (x : α) (t : Heap α) :
    (push le x t).toList.Perm (x :: t.toList) := place_perm le x t _

@[simp] theorem size_push (le : α → α → Bool) (x : α) (t : Heap α) :
    (push le x t).size = t.size + 1 := by
  rw [← length_toList, (push_perm le x t).length_eq, List.length_cons, length_toList]

/-! ### Taking the top away -/

/-- The value at the place that the turns lead to, and the tree without it. -/
def takeLast : Heap α → List Bool → Option (α × Heap α)
  | .empty, _ => none
  | .node v l r, ts =>
      let fromLeft := (takeLast l ts.tail).map fun p => (p.1, .node v p.2 r)
      let fromRight := (takeLast r ts.tail).map fun p => (p.1, .node v l p.2)
      (if ts.headD false then fromRight.or fromLeft else fromLeft.or fromRight).or
        (some (v, .empty))

/-- Whether the right one of two trees has the smaller top. -/
def goesRight (le : α → α → Bool) (l r : Heap α) : Bool :=
  match l.top?, r.top? with
  | some a, some b => le b a
  | none, some _ => true
  | _, none => false

/-- Puts a value in the place of the top: the gap moves down, and the value rises from there. -/
def refill (le : α → α → Bool) (x : α) : Heap α → Rise α
  | .empty => .rising .empty .empty
  | .node _ l r =>
      if goesRight le l r then
        match r.top? with
        | none => .rising l r
        | some v => (refill le x r).fromRight le x v l
      else
        match l.top? with
        | none => .rising l r
        | some v => (refill le x l).fromLeft le x v r

/-- The value at the top, and the tree without it. -/
def pop (le : α → α → Bool) (t : Heap α) : Option (α × Heap α) :=
  match t.takeLast (turns t.size) with
  | none => none
  | some (x, rest) =>
      match rest.top? with
      | none => some (x, .empty)
      | some v => some (v, (refill le x rest).tree x)

theorem takeLast_eq_none_iff {t : Heap α} {ts : List Bool} :
    t.takeLast ts = none ↔ t = .empty := by
  cases t <;> simp [takeLast]

theorem takeLast_cases {v x : α} {l r rest : Heap α} {ts : List Bool}
    (h : takeLast (.node v l r) ts = some (x, rest)) :
    (∃ l', l.takeLast ts.tail = some (x, l') ∧ rest = .node v l' r) ∨
      (∃ r', r.takeLast ts.tail = some (x, r') ∧ rest = .node v l r') ∨
      ((l = .empty ∧ r = .empty ∧ x = v) ∧ rest = .empty) := by
  simp only [takeLast] at h
  cases hl : l.takeLast ts.tail with
  | none =>
      cases hr : r.takeLast ts.tail with
      | none =>
          simp only [hl, hr, Option.map_none, Option.or_none, ite_self, Option.none_or,
            Option.some.injEq, Prod.mk.injEq] at h
          exact .inr (.inr ⟨⟨takeLast_eq_none_iff.mp hl, takeLast_eq_none_iff.mp hr, h.1.symm⟩,
            h.2.symm⟩)
      | some q =>
          simp only [hl, hr, Option.map_none, Option.map_some, Option.or_none, Option.none_or,
            ite_self, Option.some_or, Option.some.injEq, Prod.mk.injEq] at h
          exact .inr (.inl ⟨q.2, by rw [← h.1], h.2.symm⟩)
  | some p =>
      cases hr : r.takeLast ts.tail with
      | none =>
          simp only [hl, hr, Option.map_none, Option.map_some, Option.or_none, Option.none_or,
            ite_self, Option.some_or, Option.some.injEq, Prod.mk.injEq] at h
          exact .inl ⟨p.2, by rw [← h.1], h.2.symm⟩
      | some q =>
          simp only [hl, hr, Option.map_some, Option.some_or] at h
          split at h <;> simp only [Option.some_or, Option.some.injEq, Prod.mk.injEq] at h
          · exact .inr (.inl ⟨q.2, by rw [← h.1], h.2.symm⟩)
          · exact .inl ⟨p.2, by rw [← h.1], h.2.symm⟩

theorem takeLast_perm {t : Heap α} {ts : List Bool} {x : α} {rest : Heap α}
    (h : t.takeLast ts = some (x, rest)) : t.toList.Perm (x :: rest.toList) := by
  induction t generalizing ts x rest with
  | empty => simp [takeLast] at h
  | node v l r hl hr =>
      rcases takeLast_cases h with ⟨l', e, rfl⟩ | ⟨r', e, rfl⟩ | ⟨⟨rfl, rfl, rfl⟩, rfl⟩
      · exact (List.Perm.cons v ((hl e).append_right _)).trans (.swap _ _ _)
      · exact (List.Perm.cons v (((hr e).append_left _).trans List.perm_middle)).trans
          (.swap _ _ _)
      · exact .refl _

theorem top?_takeLast {t rest : Heap α} {ts : List Bool} {x v : α}
    (h : t.takeLast ts = some (x, rest)) (hv : rest.top? = some v) : t.top? = some v := by
  cases t with
  | empty => simp [takeLast] at h
  | node w l r =>
      rcases takeLast_cases h with ⟨l', _, rfl⟩ | ⟨r', _, rfl⟩ | ⟨_, rfl⟩
      · exact hv
      · exact hv
      · simp [top?] at hv

/-- The values under the top. -/
def under : Heap α → List α
  | .empty => []
  | .node _ l r => l.toList ++ r.toList

theorem toList_of_top? {t : Heap α} {v : α} (h : t.top? = some v) :
    t.toList = v :: t.under := by
  cases t with
  | empty => simp [top?] at h
  | node x l r =>
      simp only [top?, Option.some.injEq] at h
      subst h
      rfl

theorem refill_perm (le : α → α → Bool) (x : α) (t : Heap α) :
    ((refill le x t).tree x).toList.Perm (x :: t.under) := by
  induction t with
  | empty => exact .refl _
  | node v l r hl hr =>
      unfold refill
      split
      · split
        · exact .refl _
        · rename_i w hw
          refine (Rise.toList_fromRight ..).trans ?_
          simp only [under, toList_of_top? hw]
          refine (List.Perm.cons w (hr.append_left _)).trans ?_
          refine (List.Perm.cons w List.perm_middle).trans ?_
          exact (List.Perm.swap _ _ _).trans (.cons x List.perm_middle.symm)
      · split
        · exact .refl _
        · rename_i w hw
          refine (Rise.toList_fromLeft ..).trans ?_
          simp only [under, toList_of_top? hw]
          exact (List.Perm.cons w (hl.append_right _)).trans (.swap _ _ _)

@[simp] theorem pop_eq_none_iff {le : α → α → Bool} {t : Heap α} :
    pop le t = none ↔ t = .empty := by
  unfold pop
  split
  · rename_i h
    simpa using takeLast_eq_none_iff.mp h
  · rename_i x rest h
    have : t ≠ .empty := by rintro rfl; simp [takeLast] at h
    split <;> simp [this]

theorem pop_perm {le : α → α → Bool} {t rest : Heap α} {v : α}
    (h : pop le t = some (v, rest)) : t.toList.Perm (v :: rest.toList) := by
  unfold pop at h
  split at h
  · cases h
  · rename_i x t' ht
    split at h
    · rename_i hn
      rw [top?_eq_none_iff] at hn
      subst hn
      cases h
      exact takeLast_perm ht
    · rename_i w hw
      cases h
      refine (takeLast_perm ht).trans ?_
      rw [toList_of_top? hw]
      exact (List.Perm.swap _ _ _).trans (.cons _ (refill_perm le x t').symm)

theorem top?_of_pop {le : α → α → Bool} {t rest : Heap α} {v : α}
    (h : pop le t = some (v, rest)) : t.top? = some v := by
  unfold pop at h
  split at h
  · cases h
  · rename_i x t' ht
    split at h
    · rename_i hn
      rw [top?_eq_none_iff] at hn
      subst hn
      cases h
      cases t with
      | empty => simp [takeLast] at ht
      | node w l r =>
          rcases takeLast_cases ht with ⟨_, _, e⟩ | ⟨_, _, e⟩ | ⟨⟨_, _, rfl⟩, _⟩
          · cases e
          · cases e
          · rfl
    · rename_i w hw
      cases h
      exact top?_takeLast ht hw

theorem size_pop {le : α → α → Bool} {t rest : Heap α} {v : α}
    (h : pop le t = some (v, rest)) : rest.size + 1 = t.size := by
  rw [← length_toList t, (pop_perm h).length_eq, List.length_cons, length_toList]

end Heap

end ShardedSql
