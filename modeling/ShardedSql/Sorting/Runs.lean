/-
**Sorting by runs.**

A sequence is read from left to right in runs: long beginnings that are in order already, possibly
the wrong way round, and between them pieces of a fixed length.  Neighbouring runs are joined in
the order of a binary tree over the whole sequence, so that runs of nearly equal length meet.

A piece is either sorted at once, or it is left for later: neighbours that are both left for later
are joined without being sorted.

Main definitions:

* `ShardedSql.Sorting.Run` — a part of a sequence, in order or left for later;
* `ShardedSql.Sorting.Run.ofFront` — the run that a sequence begins with;
* `ShardedSql.Sorting.Run.join` — two neighbours as one;
* `ShardedSql.Sorting.depth` — how deep in the tree two neighbours are joined;
* `ShardedSql.Sorting.byRuns` — the sort.

Main results:

* `ShardedSql.Sorting.byRuns_perm` — **no value is lost**, whatever the comparison.
-/

import ShardedSql.Sorting.Short

set_option relaxedAutoImplicit false
set_option autoImplicit false

namespace ShardedSql.Sorting

variable {α : Type}

/-! ### Runs -/

/-- A part of a sequence. -/
structure Run (α : Type) where
  items : List α
  /-- The part is in order; otherwise it is left for later. -/
  sorted : Bool

/-- How to sort: the comparison, and what is done with pieces. -/
structure Method (α : Type) where
  lt : α → α → Bool
  /-- Pieces are sorted at once. -/
  eager : Bool
  /-- The sort of parts that were left for later. -/
  later : List α → List α

/-- How many values at the front of a sequence follow one another as asked. -/
def chain (follows : α → α → Bool) : List α → Nat
  | [] => 0
  | [_] => 1
  | a :: b :: rest => if follows a b then chain follows (b :: rest) + 1 else 1

/-- The beginning of a sequence that is in order, and whether it is the wrong way round. -/
def ordered (lt : α → α → Bool) (xs : List α) : List α × Bool :=
  match xs with
  | a :: b :: _ =>
      if lt b a then (xs.take (chain (fun x y => lt y x) xs), true)
      else (xs.take (chain (fun x y => !lt y x) xs), false)
  | _ => (xs, false)

/-- A number near the square root. -/
def nearRoot (n : Nat) : Nat :=
  let s := (1 + Nat.log2 n) / 2
  ((1 <<< s) + (n >>> s)) / 2

/-- The least length of a beginning in order that becomes a run of its own. -/
def leastRun (n : Nat) : Nat := if n ≤ 4096 then min (n - n / 2) 64 else nearRoot n

/-- The run that a sequence begins with, and the rest of the sequence. -/
def Run.ofFront (m : Method α) (least : Nat) (xs : List α) : Run α × List α :=
  let (front, reversed) := ordered m.lt xs
  if least ≤ front.length then
    (⟨if reversed then front.reverse else front, true⟩, xs.drop front.length)
  else if m.eager then (⟨short m.lt (xs.take shortLength), true⟩, xs.drop shortLength)
  else (⟨xs.take least, false⟩, xs.drop least)

/-- The values of a run in order. -/
def Run.finish (m : Method α) (r : Run α) : List α := if r.sorted then r.items else m.later r.items

/-- Two neighbours as one run. -/
def Run.join (m : Method α) (l r : Run α) : Run α :=
  if l.sorted || r.sorted then ⟨mergeShorter m.lt (l.finish m) (r.finish m), true⟩
  else ⟨l.items ++ r.items, false⟩

/-! ### The tree -/

/-- How deep in a binary tree over a sequence its parts from `left` to `mid` and from `mid` to
`right` are joined: the number of leading binary digits, of 64, that the middles of the two parts
share.  The middles are stretched by `scale`, so that the tree is as wide as the sequence. -/
def depth (scale left mid right : Nat) : Nat :=
  let apart := (scale * (left + mid)) ^^^ (scale * (mid + right))
  if apart = 0 then 64 else 63 - Nat.log2 apart

/-- Joins a run with those before it that are to be joined at a depth or below. -/
def Run.collapse (m : Method α) (d : Nat) :
    List (Run α × Nat) → Run α → List (Run α × Nat) × Run α
  | [], r => ([], r)
  | (l, e) :: before, r => if d ≤ e then collapse m d before (l.join m r) else ((l, e) :: before, r)

/-- Reads the rest of a sequence after a run that ends at `done`; the runs before that one wait to
be joined, each with the depth for that.  At most `k` runs are read. -/
def Run.walk (m : Method α) (least scale : Nat) :
    Nat → Nat → List α → List (Run α × Nat) → Run α → Run α
  | 0, _, rest, before, r => ((collapse m 0 before r).2).join m ⟨rest, false⟩
  | k + 1, done, rest, before, r =>
      if rest.isEmpty then (collapse m 0 before r).2
      else
        let (next, rest) := ofFront m least rest
        let mid := done + next.items.length
        let d := depth scale (done - r.items.length) done mid
        let (before, r) := collapse m d before r
        walk m least scale k mid rest ((r, d) :: before) next

/-- A sequence in order. -/
def byRuns (m : Method α) (xs : List α) : List α :=
  if xs.length < 2 then xs
  else
    let n := xs.length
    let (first, rest) := Run.ofFront m (leastRun n) xs
    ((Run.walk m (leastRun n) (((1 <<< 62) + n - 1) / n) n first.items.length rest [] first).finish
      m)

/-! ### No value is lost -/

theorem ordered_eq_take (lt : α → α → Bool) (xs : List α) :
    (ordered lt xs).1 = xs.take (ordered lt xs).1.length := by
  unfold ordered
  split
  · split <;> simp
  · simp

theorem Run.ofFront_perm (m : Method α) (least : Nat) (xs : List α) :
    ((ofFront m least xs).1.items ++ (ofFront m least xs).2).Perm xs := by
  have h := ordered_eq_take m.lt xs
  simp only [ofFront]
  generalize ordered m.lt xs = o at h ⊢
  obtain ⟨front, reversed⟩ := o
  simp only at h ⊢
  split
  · have : (front ++ xs.drop front.length).Perm xs :=
      .of_eq (by conv => lhs; arg 1; rw [h]
                 exact List.take_append_drop _ _)
    cases reversed
    · exact this
    · exact ((List.reverse_perm front).append_right _).trans this
  · split
    · refine ((short_perm ..).append_right _).trans ?_
      rw [List.take_append_drop]
    · rw [List.take_append_drop]

theorem Run.finish_perm {m : Method α} (h : ∀ xs, (m.later xs).Perm xs) (r : Run α) :
    (r.finish m).Perm r.items := by
  unfold finish
  split
  · exact .refl _
  · exact h _

theorem Run.join_perm {m : Method α} (h : ∀ xs, (m.later xs).Perm xs) (l r : Run α) :
    (l.join m r).items.Perm (l.items ++ r.items) := by
  unfold join
  split
  · exact (mergeShorter_perm ..).trans ((finish_perm h l).append (finish_perm h r))
  · exact .refl _

/-- The values of the runs that wait, in the order of the sequence. -/
def waitingItems (before : List (Run α × Nat)) : List α :=
  before.reverse.flatMap fun p => p.1.items

theorem waitingItems_cons (p : Run α × Nat) (before : List (Run α × Nat)) :
    waitingItems (p :: before) = waitingItems before ++ p.1.items := by
  simp [waitingItems]

theorem Run.collapse_perm {m : Method α} (h : ∀ xs, (m.later xs).Perm xs) (d : Nat)
    (before : List (Run α × Nat)) (r : Run α) :
    (waitingItems (collapse m d before r).1 ++ (collapse m d before r).2.items).Perm
      (waitingItems before ++ r.items) := by
  induction before generalizing r with
  | nil => exact .refl _
  | cons p before ih =>
      unfold collapse
      split
      · refine (ih _).trans (((join_perm h p.1 r).append_left _).trans ?_)
        rw [waitingItems_cons, List.append_assoc]
      · exact .refl _

theorem Run.collapse_zero (m : Method α) (before : List (Run α × Nat)) (r : Run α) :
    (collapse m 0 before r).1 = [] := by
  induction before generalizing r with
  | nil => rfl
  | cons p before ih => simpa [collapse] using ih _

theorem Run.walk_perm {m : Method α} (h : ∀ xs, (m.later xs).Perm xs) (least scale k done : Nat)
    (rest : List α) (before : List (Run α × Nat)) (r : Run α) :
    (walk m least scale k done rest before r).items.Perm
      (waitingItems before ++ r.items ++ rest) := by
  have last : ∀ (before : List (Run α × Nat)) (r : Run α),
      ((collapse m 0 before r).2).items.Perm (waitingItems before ++ r.items) := by
    intro before r
    have := collapse_perm h 0 before r
    rw [collapse_zero] at this
    exact this
  induction k generalizing done rest before r with
  | zero => exact (join_perm h _ _).trans ((last before r).append_right _)
  | succ k ih =>
      unfold walk
      split
      · rename_i he
        rw [List.isEmpty_iff] at he
        subst he
        simpa using last before r
      · refine (ih _ _ _ _).trans ?_
        rw [waitingItems_cons, List.append_assoc]
        exact (collapse_perm h _ before r).append (ofFront_perm m least rest)

theorem byRuns_perm {m : Method α} (h : ∀ xs, (m.later xs).Perm xs) (xs : List α) :
    (byRuns m xs).Perm xs := by
  unfold byRuns
  split
  · exact .refl _
  · refine (Run.finish_perm h _).trans ((Run.walk_perm h ..).trans ?_)
    exact Run.ofFront_perm m _ xs

end ShardedSql.Sorting
