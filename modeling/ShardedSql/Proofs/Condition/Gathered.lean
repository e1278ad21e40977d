/-
**What is gathered of a column, exactly.**

The constraints that are gathered of one column are joined: an integer meets what is known of the
column exactly when it meets each of them, what is known is a range when each of them is one, and a
range misses a bound where each of them does.  Gathering notes that no row can meet the condition
exactly when what is known of some column is found empty, as an empty constraint stays empty.

Where two rows are looked for, each constraint is one that the first or the second of them meets.
What is known of a column is then found empty exactly when no integer meets it: a range that misses
a bound is met by the larger or the smaller of the two.

Main definitions:

* `ShardedSql.Constraint.Joins` — **a constraint says what some constraints say together**;
* `ShardedSql.Condition.Clue.constraintOn?` — the constraint of a clue about a column;
* `ShardedSql.Condition.Clue.bars` — a clue makes a column unusable.

Main results:

* `ShardedSql.Constraint.Joins.isEmpty_eq_false_iff` — when constraints that two integers meet are
  found to exclude each other;
* `ShardedSql.Condition.Gathered.known_foldl` — **what is known of a column joins its
  constraints**;
* `ShardedSql.Condition.Gathered.alwaysFalse_foldl_iff` — when it is noted that no row can meet a
  condition.
-/

import ShardedSql.Proofs.Condition.Permuted

set_option relaxedAutoImplicit false
set_option autoImplicit false

namespace ShardedSql

/-! ### Constraints -/

namespace Constraint

/-- A constraint on integers says what some constraints say together. -/
structure Joins (ks : List Constraint) (k : Constraint) : Prop where
  ints : k.IsOnInts
  meets : ∀ n, k.Meets n ↔ ∀ d ∈ ks, d.Meets n
  range : k.range?.isSome = true ↔ ∀ d ∈ ks, d.range?.isSome = true
  lower : ∀ r ∈ k.range?, r.lower = .unbounded →
    ∀ d ∈ ks, ∀ s ∈ d.range?, s.lower = .unbounded
  upper : ∀ r ∈ k.range?, r.upper = .unbounded →
    ∀ d ∈ ks, ∀ s ∈ d.range?, s.upper = .unbounded

namespace Joins

variable {ks : List Constraint} {k d : Constraint} {x y : Int64}

theorem single (hd : d.IsOnInts) : Joins [d] d where
  ints := hd
  meets n := List.forall_mem_singleton.symm
  range := by rw [List.forall_mem_singleton]
  lower r hr hopen e he s hs := by
    cases List.mem_singleton.1 he
    cases hr.symm.trans hs
    exact hopen
  upper r hr hopen e he s hs := by
    cases List.mem_singleton.1 he
    cases hr.symm.trans hs
    exact hopen

/-- **One more constraint is joined by intersecting.** -/
theorem intersect (h : Joins ks k) (hd : d.IsOnInts) : Joins (ks ++ [d]) (k.intersect d) where
  ints := h.ints.intersect hd
  meets n := by
    rw [meets_intersect_iff h.ints hd, h.meets, List.forall_mem_append,
      List.forall_mem_singleton]
  range := by
    rw [List.forall_mem_append, List.forall_mem_singleton, ← h.range, range?_intersect]
    cases k.range? <;> cases d.range? <;> simp
  lower r hr hopen e he s hs := by
    rw [range?_intersect] at hr
    obtain ⟨u, hu, hr⟩ := Option.bind_eq_some_iff.1 hr
    obtain ⟨v, hv, rfl⟩ := Option.map_eq_some_iff.1 hr
    obtain ⟨hleft, hright⟩ := Range.eq_unbounded_of_tighter hopen
    rcases List.mem_append.1 he with he | he
    · exact h.lower u hu hleft e he s hs
    · cases List.mem_singleton.1 he
      cases hv.symm.trans hs
      exact hright
  upper r hr hopen e he s hs := by
    rw [range?_intersect] at hr
    obtain ⟨u, hu, hr⟩ := Option.bind_eq_some_iff.1 hr
    obtain ⟨v, hv, rfl⟩ := Option.map_eq_some_iff.1 hr
    obtain ⟨hleft, hright⟩ := Range.eq_unbounded_of_tighter hopen
    rcases List.mem_append.1 he with he | he
    · exact h.upper u hu hleft e he s hs
    · cases List.mem_singleton.1 he
      cases hv.symm.trans hs
      exact hright

/-- Where the bound on one side is missing, an integer that lies further on that side than one that
a constraint is met by meets it too. -/
theorem meets_of_beyond (h : Joins ks k) {r : Range} (hr : r ∈ k.range?) {m : Int64}
    (hbeyond : ∀ d ∈ ks, ∃ n, d.Meets n ∧
      (r.upper = .unbounded ∧ n.toInt ≤ m.toInt ∨ r.lower = .unbounded ∧ m.toInt ≤ n.toInt)) :
    k.Meets m := by
  refine (h.meets m).2 fun d hd => ?_
  have hsome := h.range.1 (Option.isSome_iff_exists.2 ⟨r, hr⟩) d hd
  obtain ⟨n, hn, hside⟩ := hbeyond d hd
  cases d with
  | oneOf values => cases hsome
  | within s =>
      obtain ⟨hints, hcontains⟩ := hn
      obtain ⟨habove, hbelow⟩ := (Range.contains_int_iff hints n).1 hcontains
      refine ⟨hints, (Range.contains_int_iff hints m).2 ?_⟩
      rcases hside with ⟨hopen, hle⟩ | ⟨hopen, hle⟩
      · have hupper := h.upper r hr hopen _ hd s rfl
        exact ⟨Range.above_mono hints.1 habove hle, by rw [hupper]; trivial⟩
      · have hlower := h.lower r hr hopen _ hd s rfl
        exact ⟨by rw [hlower]; trivial, Range.below_mono hints.2 hbelow hle⟩

/-- **Constraints each of which one of two integers meets are met by one of them together**, where
they leave a side open. -/
theorem meets_of_open (h : Joins ks k) (hown : ∀ d ∈ ks, d.Meets x ∨ d.Meets y) {r : Range}
    (hr : r ∈ k.range?) (hopen : ¬ r.HasEnds) : k.Meets x ∨ k.Meets y := by
  have hside : r.upper = .unbounded ∨ r.lower = .unbounded := by
    by_contra hboth
    rw [not_or] at hboth
    exact hopen ⟨hboth.2, hboth.1⟩
  -- on an open upper side the larger of the two meets all, on a lower one the smaller
  have hpick (m : Int64) (hm : r.upper = .unbounded ∧ x.toInt ≤ m.toInt ∧ y.toInt ≤ m.toInt ∨
      r.lower = .unbounded ∧ m.toInt ≤ x.toInt ∧ m.toInt ≤ y.toInt) : k.Meets m := by
    refine h.meets_of_beyond hr fun d hd => ?_
    rcases hown d hd with hd | hd
    · exact ⟨x, hd, hm.imp (fun h => ⟨h.1, h.2.1⟩) fun h => ⟨h.1, h.2.1⟩⟩
    · exact ⟨y, hd, hm.imp (fun h => ⟨h.1, h.2.2⟩) fun h => ⟨h.1, h.2.2⟩⟩
  rcases hside with hupper | hlower <;> rcases Int.le_total x.toInt y.toInt with hle | hle
  · exact .inr (hpick y (.inl ⟨hupper, hle, Int.le_refl _⟩))
  · exact .inl (hpick x (.inl ⟨hupper, Int.le_refl _, hle⟩))
  · exact .inl (hpick x (.inr ⟨hlower, Int.le_refl _, hle⟩))
  · exact .inr (hpick y (.inr ⟨hlower, hle, Int.le_refl _⟩))

/-- **Constraints each of which one of two integers meets are found to exclude each other exactly
when no integer meets all of them.** -/
theorem isEmpty_eq_false_iff (h : Joins ks k) (hown : ∀ d ∈ ks, d.Meets x ∨ d.Meets y) :
    k.isEmpty = false ↔ ∃ m, k.Meets m := by
  refine ⟨fun hempty => ?_, fun ⟨m, hm⟩ => hm.isEmpty⟩
  by_contra hnone
  rw [not_exists] at hnone
  refine Bool.false_ne_true (hempty.symm.trans ((isEmpty_iff h.ints).2 ⟨fun r hr => ?_, hnone⟩))
  by_contra hopen
  rcases h.meets_of_open hown hr hopen with hm | hm
  · exact hnone x hm
  · exact hnone y hm

end Joins

end Constraint

namespace Condition

/-! ### Clues -/

namespace Clue

/-- The constraint of a clue, when it is about a column. -/
def constraintOn? (table column : String) : Clue → Option Constraint
  | .unusable _ _ => none
  | .constrained t c k _ => if sameColumn t c table column then some k else none

/-- The clue makes a column unusable. -/
def bars (table column : String) : Clue → Bool
  | .unusable t c => sameColumn table column (Text.lowercase t) (Text.lowercase c)
  | .constrained .. => false

end Clue

namespace Gathered

open ColumnConstraint (knownIn)
open Constraint (Joins)

variable {xs : List Clue}

/-- **What is known of a column joins the constraints of the clues about it**, and nothing is known
without any. -/
theorem known_foldl (hxs : ∀ x ∈ xs, x.IsOnInts) (t c : String) :
    ((xs.foldl Clue.apply {}).known t c = none ↔ xs.filterMap (Clue.constraintOn? t c) = []) ∧
      ∀ k ∈ (xs.foldl Clue.apply {}).known t c,
        Joins (xs.filterMap (Clue.constraintOn? t c)) k := by
  induction xs using List.reverseRecOn with
  | nil => exact ⟨⟨fun _ => rfl, fun _ => rfl⟩, fun k hk => by cases hk⟩
  | append_singleton xs x ih =>
      obtain ⟨hxs, hx⟩ := List.forall_mem_append.1 hxs
      have hx := List.forall_mem_singleton.1 hx
      obtain ⟨hnone, hjoins⟩ := ih hxs
      rw [List.foldl_concat, List.filterMap_append]
      generalize hg : xs.foldl Clue.apply {} = g at hnone hjoins
      cases x with
      | unusable t' c' =>
          simp only [List.filterMap_cons, Clue.constraintOn?, List.filterMap_nil, List.append_nil]
          exact ⟨hnone, hjoins⟩
      | constrained t' c' d markers =>
          rw [Clue.apply, known_add]
          simp only [List.filterMap_cons, Clue.constraintOn?, List.filterMap_nil]
          split
          · rename_i hsame
            have hknown : g.known t' c' = g.known t c := ColumnConstraint.knownIn_congr hsame
            refine ⟨by simp, fun k hk => ?_⟩
            cases hk
            rw [hknown]
            cases hk : g.known t c with
            | none =>
                rw [hnone.1 hk]
                exact .single hx
            | some k => exact (hjoins k hk).intersect hx
          · rw [List.append_nil]
            exact ⟨hnone, hjoins⟩

/-- **It is noted that no row can meet the condition exactly when what is known of some column is
found empty.** -/
theorem alwaysFalse_foldl_iff (hxs : ∀ x ∈ xs, x.IsOnInts) :
    (xs.foldl Clue.apply {}).alwaysFalse = true ↔
      ∃ t c, ∃ k ∈ (xs.foldl Clue.apply {}).known t c, k.isEmpty = true := by
  induction xs using List.reverseRecOn with
  | nil => exact ⟨fun h => (by cases h), fun ⟨t, c, k, hk, _⟩ => by cases hk⟩
  | append_singleton xs x ih =>
      obtain ⟨hxs, hx⟩ := List.forall_mem_append.1 hxs
      have hx := List.forall_mem_singleton.1 hx
      have ih := ih hxs
      have hjoins := fun t c => (known_foldl hxs t c).2
      rw [List.foldl_concat]
      generalize xs.foldl Clue.apply {} = g at ih hjoins
      cases x with
      | unusable t' c' => exact ih
      | constrained t' c' d markers =>
          simp only [Clue.apply, alwaysFalse_add, known_add, Bool.or_eq_true, ih]
          constructor
          · rintro (⟨t, c, k, hk, hempty⟩ | hempty)
            · cases hsame : sameColumn t' c' t c with
              | false => exact ⟨t, c, k, by rwa [hsame, if_neg Bool.false_ne_true], hempty⟩
              | true =>
                  -- what was empty before stays so
                  have hknown : g.known t' c' = some k :=
                    (ColumnConstraint.knownIn_congr hsame).trans hk
                  refine ⟨t, c, k.intersect d, ?_,
                    Constraint.isEmpty_intersect (hjoins t c k hk).ints hx hempty⟩
                  rw [hsame, if_pos rfl, hknown]
                  rfl
            · refine ⟨t', c', _, ?_, hempty⟩
              rw [if_pos (sameColumn_iff.2 ⟨Text.sameName_refl _, Text.sameName_refl _⟩)]
              rfl
          · rintro ⟨t, c, k, hk, hempty⟩
            split at hk
            · cases hk
              exact .inr hempty
            · exact .inl ⟨t, c, k, hk, hempty⟩

/-- A column is unusable when some clue makes it so. -/
theorem bars_foldl (xs : List Clue) (t c : String) :
    (xs.foldl Clue.apply {}).bars t c = xs.any (Clue.bars t c) := by
  induction xs using List.reverseRecOn with
  | nil => rfl
  | append_singleton xs x ih =>
      rw [List.foldl_concat, List.any_append, ← ih]
      cases x with
      | unusable t' c' => exact List.any_append
      | constrained t' c' d markers =>
          rw [Clue.apply, bars, unusable_add]
          exact (Bool.or_false _).symm

theorem conditions_of_alwaysFalse {g : Gathered} (hg : g.alwaysFalse = true) :
    g.conditions = [never 0] := by
  rw [conditions, hg, if_pos rfl]

/-- What is gathered gives one condition at most, which can be met when nothing else is noted. -/
theorem conditions_cases {g : Gathered} (hg : g.alwaysFalse = false) :
    g.conditions = [] ∨ ∃ c, g.conditions = [c] ∧ c.alwaysFalse = false := by
  unfold conditions
  rw [hg, if_neg Bool.false_ne_true]
  simp only
  split
  · exact .inl rfl
  · exact .inr ⟨_, rfl, rfl⟩

theorem length_conditions_le_one (g : Gathered) : g.conditions.length ≤ 1 := by
  cases hg : g.alwaysFalse with
  | true => rw [conditions_of_alwaysFalse hg, List.length_singleton]
  | false =>
      rcases conditions_cases hg with h | ⟨c, h, -⟩
      · rw [h]
        exact Nat.zero_le 1
      · rw [h, List.length_singleton]

theorem meetable_of_mem_conditions {g : Gathered} (hg : g.alwaysFalse = false) :
    ∀ c ∈ g.conditions, c.alwaysFalse = false := by
  rcases conditions_cases hg with h | ⟨c, h, hc⟩
  · rw [h]
    exact fun c hc => by cases hc
  · rw [h]
    exact List.forall_mem_singleton.2 hc

/-- What a condition that can be met says of a column is what is known of it, unless the column is
unusable. -/
theorem knownIn_conditions {g : Gathered} (hg : g.alwaysFalse = false) (t c : String) :
    (g.conditions.head?.bind fun condition => knownIn condition.values t c) =
      if !g.bars t c then g.known t c else none := by
  rw [← knownIn_usable]
  unfold conditions
  rw [hg, if_neg Bool.false_ne_true]
  simp only
  split
  · rename_i hempty
    exact (ColumnConstraint.isEmpty_iff_knownIn.1 hempty t c).symm
  · rfl

end Gathered

end Condition

end ShardedSql
