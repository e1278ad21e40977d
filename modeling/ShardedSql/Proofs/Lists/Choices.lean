/-
**All ways to take a member of each of some lists.**

The ways are listed with those first that take an earlier member of the first list, then of the
second one, and so on.

Main definitions:

* `ShardedSql.Lists.choices` — **all ways to take a member of each list**;
* `ShardedSql.Lists.places` — the same with the places of the members;
* `ShardedSql.Lists.Precedes` — at the first difference one way takes the earlier member.

Main results:

* `ShardedSql.Lists.mem_choices`, `ShardedSql.Lists.length_choices` — they are all there;
* `ShardedSql.Lists.pairwise_places`, `ShardedSql.Lists.choices_at_places` — they take the places of
  the members in lexicographic order;
* `ShardedSql.Lists.pairwise_choices`, `ShardedSql.Lists.nodup_choices` — they are in order, and
  none is there twice;
* `ShardedSql.Lists.pairwise_idxOf_eraseDups_filter` — members that are kept once stand in the order
  in which they come first.
-/

import ShardedSql.Proofs.Lists

set_option relaxedAutoImplicit false
set_option autoImplicit false

namespace ShardedSql.Lists

variable {α : Type}

/-! ### Ways to take a member of each list -/

/-- All ways to take a member of each list, those with earlier members of the first list first. -/
def choices : List (List α) → List (List α)
  | [] => [[]]
  | l :: ls => l.flatMap fun a => (choices ls).map (a :: ·)

theorem mem_choices {ls : List (List α)} {c : List α} :
    c ∈ choices ls ↔ List.Forall₂ (· ∈ ·) c ls := by
  induction ls generalizing c with
  | nil => rw [choices, List.mem_singleton, List.forall₂_nil_right_iff]
  | cons l ls ih =>
      rw [choices, List.mem_flatMap, List.forall₂_cons_right_iff]
      constructor
      · rintro ⟨a, ha, hc⟩
        obtain ⟨d, hd, rfl⟩ := List.mem_map.1 hc
        exact ⟨a, d, ha, ih.1 hd, rfl⟩
      · rintro ⟨a, d, ha, hd, rfl⟩
        exact ⟨a, ha, List.mem_map.2 ⟨d, ih.2 hd, rfl⟩⟩

/-- There are as many ways as the product of the lengths says. -/
theorem length_choices (ls : List (List α)) :
    (choices ls).length = (ls.map List.length).foldr (· * ·) 1 := by
  induction ls with
  | nil => rfl
  | cons l ls ih =>
      rw [choices, List.map_cons, List.foldr_cons, ← ih]
      simp [List.length_flatMap, List.map_const']

/-! ### Taking a place of each list -/

/-- All ways to take a place of each list. -/
def places (ls : List (List α)) : List (List Nat) := choices (ls.map fun l => List.range l.length)

theorem mem_places {ls : List (List α)} {c : List Nat} :
    c ∈ places ls ↔ List.Forall₂ (fun i l => i < l.length) c ls := by
  simp only [places, mem_choices, List.forall₂_map_right_iff, List.mem_range]

/-- Ways to take numbers are in the order of the numbers when the numbers of each list are. -/
theorem pairwise_lex_choices {ls : List (List Nat)} (h : ∀ l ∈ ls, l.Pairwise (· < ·)) :
    (choices ls).Pairwise (List.Lex (· < ·)) := by
  induction ls with
  | nil => exact List.pairwise_singleton ..
  | cons l ls ih =>
      obtain ⟨hl, hls⟩ := List.forall_mem_cons.1 h
      rw [choices, List.pairwise_flatMap]
      constructor
      · intro i _
        exact List.pairwise_map.2 ((ih hls).imp fun hcd => .cons hcd)
      · refine hl.imp fun hij c hc d hd => ?_
        obtain ⟨c, -, rfl⟩ := List.mem_map.1 hc
        obtain ⟨d, -, rfl⟩ := List.mem_map.1 hd
        exact .rel hij

/-- **The ways to take places are in lexicographic order.** -/
theorem pairwise_places (ls : List (List α)) : (places ls).Pairwise (List.Lex (· < ·)) := by
  refine pairwise_lex_choices fun l hl => ?_
  obtain ⟨m, -, rfl⟩ := List.mem_map.1 hl
  exact List.pairwise_lt_range

/-- The ways to take members are those to take their places, one by one. -/
theorem choices_at_places (ls : List (List α)) :
    List.Forall₂ (fun c way => List.zipWith (fun l i => l[i]?) ls c = way.map some) (places ls)
      (choices ls) := by
  induction ls with
  | nil => exact .cons rfl .nil
  | cons l ls ih =>
      have hmembers : List.Forall₂ (fun i a => l[i]? = some a) (List.range l.length) l := by
        rw [List.forall₂_iff_get]
        refine ⟨List.length_range, fun i hi hi' => ?_⟩
        simp
      refine List.rel_flatMap hmembers fun i a hia => ?_
      rw [List.forall₂_map_left_iff, List.forall₂_map_right_iff]
      refine ih.imp fun c way hway => ?_
      rw [List.zipWith_cons_cons, hia, hway, List.map_cons]

/-! ### Their order -/

variable [DecidableEq α]

/-- At the first list from which two ways take different members the first way takes the one that
stands earlier there. -/
def Precedes : List (List α) → List α → List α → Prop
  | l :: ls, a :: c, b :: d => l.idxOf a < l.idxOf b ∨ a = b ∧ Precedes ls c d
  | _, _, _ => False

theorem not_precedes_self (ls : List (List α)) (c : List α) : ¬ Precedes ls c c := by
  induction ls generalizing c with
  | nil => exact id
  | cons l ls ih =>
      cases c with
      | nil => exact id
      | cons a c => exact fun h => h.elim (Nat.lt_irrefl _) fun h => ih c h.2

/-- Members of a list without equal ones stand at rising places. -/
theorem pairwise_idxOf {l : List α} (h : l.Nodup) :
    l.Pairwise fun a b => l.idxOf a < l.idxOf b := by
  induction l with
  | nil => exact .nil
  | cons a l ih =>
      obtain ⟨ha, hl⟩ := List.nodup_cons.1 h
      have hbehind : ∀ b ∈ l, (a :: l).idxOf b = l.idxOf b + 1 := fun b hb =>
        List.idxOf_cons_ne l fun heq => ha (heq ▸ hb)
      refine List.pairwise_cons.2 ⟨fun b hb => ?_, (ih hl).imp_of_mem fun hb hc hbc => ?_⟩
      · rw [hbehind b hb, List.idxOf_cons_self]
        exact Nat.succ_pos _
      · rw [hbehind _ hb, hbehind _ hc]
        exact Nat.succ_lt_succ hbc

/-- **The ways are in order.** -/
theorem pairwise_choices {ls : List (List α)} (h : ∀ l ∈ ls, l.Nodup) :
    (choices ls).Pairwise (Precedes ls) := by
  induction ls with
  | nil => exact List.pairwise_singleton ..
  | cons l ls ih =>
      obtain ⟨hl, hls⟩ := List.forall_mem_cons.1 h
      rw [choices, List.pairwise_flatMap]
      constructor
      · intro a _
        exact List.pairwise_map.2 ((ih hls).imp fun hcd => .inr ⟨rfl, hcd⟩)
      · refine (pairwise_idxOf hl).imp fun hab c hc d hd => ?_
        obtain ⟨c, -, rfl⟩ := List.mem_map.1 hc
        obtain ⟨d, -, rfl⟩ := List.mem_map.1 hd
        exact .inl hab

/-- **No way is taken twice.** -/
theorem nodup_choices {ls : List (List α)} (h : ∀ l ∈ ls, l.Nodup) : (choices ls).Nodup := by
  refine (pairwise_choices h).imp fun hcd => ?_
  rintro rfl
  exact not_precedes_self ls _ hcd

/-! ### First places -/

/-- The members that satisfy a condition stand in the order in which they come first. -/
theorem pairwise_idxOf_eraseDups_filter (l : List α) (keeps : α → Bool) :
    (l.filter keeps).eraseDups.Pairwise fun a b => l.idxOf a < l.idxOf b := by
  induction l generalizing keeps with
  | nil => exact .nil
  | cons a l ih =>
      -- behind the first member are only others
      have hrest (keeps : α → Bool) (ha : keeps a = false) :
          (l.filter keeps).eraseDups.Pairwise fun b c =>
            (a :: l).idxOf b < (a :: l).idxOf c := by
        have hbehind : ∀ b ∈ (l.filter keeps).eraseDups, (a :: l).idxOf b = l.idxOf b + 1 := by
          intro b hb
          have hkept := (List.mem_filter.1 (List.mem_eraseDups.1 hb)).2
          refine List.idxOf_cons_ne l fun heq => ?_
          rw [heq, hkept] at ha
          cases ha
        refine (ih keeps).imp_of_mem fun hb hc hbc => ?_
        rw [hbehind _ hb, hbehind _ hc]
        exact Nat.succ_lt_succ hbc
      cases ha : keeps a with
      | false =>
          rw [List.filter_cons_of_neg (by simp [ha])]
          exact hrest keeps ha
      | true =>
          rw [List.filter_cons_of_pos ha, List.eraseDups_cons, List.filter_filter]
          refine List.pairwise_cons.2 ⟨fun b hb => ?_, hrest _ (by simp)⟩
          have hkept := (List.mem_filter.1 (List.mem_eraseDups.1 hb)).2
          have hne : a ≠ b := by
            rintro rfl
            simp at hkept
          rw [List.idxOf_cons_ne l hne, List.idxOf_cons_self]
          exact Nat.succ_pos _

end ShardedSql.Lists
