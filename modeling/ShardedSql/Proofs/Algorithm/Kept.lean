/-
**When a constraint keeps the target of an integer that does not meet it.**

Two integers belong to one target, and each of some constraints is met by one of them.  Joined, the
constraints may be met by neither.  The target is kept all the same when some other integer that
belongs to it meets them; and where a range is given to an algorithm that takes the remainder of a
hash, every target is kept.  In no other case it is.

Main definitions:

* `ShardedSql.Algorithm.Hashes` — the algorithm takes the remainder of a hash.

Main results:

* `ShardedSql.Algorithm.mem_rangeTargets_iff` — **when a range keeps a target**;
* `ShardedSql.Strategy.mem_targets_iff` — **when constraints that are joined keep a target**.
-/

import ShardedSql.Proofs.Algorithm.Narrowing
import ShardedSql.Proofs.Condition.Gathered

set_option relaxedAutoImplicit false
set_option autoImplicit false

namespace ShardedSql

namespace Algorithm

/-- The algorithm takes the remainder of a hash, which says nothing of the integers in a range. -/
def Hashes : Algorithm → Prop
  | .hashMod _ => True
  | .crc32Mod _ => True
  | _ => False

variable {a : Algorithm} {available names : List String} {table column name : String} {r : Range}
  {lower upper x : Int64}

/-- Integers with the same number belong to the same target. -/
theorem target_congr {m n : Int64} (h : a.number (.int m) = a.number (.int n))
    (hn : a.target available ⟨table, column, .int n⟩ = .ok name) :
    a.target available ⟨table, column, .int m⟩ = .ok name := by
  obtain ⟨k, hk, hfind⟩ := target_eq_ok.1 hn
  exact target_eq_ok.2 ⟨k, h.trans hk, hfind⟩

theorem divisor_le (count : Nat) : divisor count ≤ count := by
  unfold divisor Text.maxInt64 Text.maxUInt64
  split <;> omega

/-- Some integer of a range between two integers leaves every remainder that the range keeps. -/
theorem exists_of_mem_modRangeTargets {count : Nat} (hvalid : (mod count).IsValid)
    (hr : r.RunsBetween lower upper) (hle : lower.toInt ≤ upper.toInt)
    (hclosed : r.closedInts? = some (lower, upper))
    (hk : targetNumber? name = some (x.toInt % (divisor count : Int)).toNat)
    (hname : name ∈ modRangeTargets count available r) :
    ∃ m : Int64, r.contains (.int m) = true ∧
      (mod count).number (.int m) = (mod count).number (.int x) := by
  have hdivisor := divisor_pos hvalid.1 hvalid.2
  have hleaves : leavesRemainder (divisor count) lower.toInt upper.toInt
      (x.toInt % (divisor count : Int)).toNat = true := by
    rw [modRangeTargets, hclosed] at hname
    simp only at hname
    rw [if_neg (by omega)] at hname
    split at hname
    · -- the range is as long as the count, so that it leaves every remainder
      have hlt := Int.emod_lt_of_pos x.toInt (by omega : (0 : Int) < divisor count)
      have hcount := divisor_le count
      exact leavesRemainder_of_le (by omega) (by omega)
    · obtain ⟨-, hany⟩ := List.mem_filter.1 hname
      rwa [hk] at hany
  obtain ⟨n, hlower, hupper, hn⟩ := (leavesRemainder_iff hdivisor).1 hleaves
  have hl := Signed.toInt_fits lower
  have hu := Signed.toInt_fits upper
  obtain ⟨m, rfl⟩ := Signed.exists_word (n := n) (by omega)
  exact ⟨m, (hr.contains_iff m).2 ⟨hlower, hupper⟩, congrArg Except.ok hn⟩

/-- Some integer of a range falls into every interval of an integer that the range keeps: the
integer itself, or the end of the range that it lies beyond. -/
theorem exists_of_mem_intervalRangeTargets {cuts : List Int} (hr : r.RunsBetween lower upper)
    (hle : lower.toInt ≤ upper.toInt) (hk : targetNumber? name = some (interval cuts x.toInt))
    (hnames : intervalRangeTargets cuts available r = .ok names) (hname : name ∈ names) :
    ∃ m : Int64, r.contains (.int m) = true ∧
      interval cuts m.toInt = interval cuts x.toInt := by
  have hfits := Signed.toInt_fits x
  obtain ⟨l, hl, hnames⟩ := Outcome.bind_eq_ok.1 hnames
  obtain ⟨u, hu, hnames⟩ := Outcome.bind_eq_ok.1 hnames
  cases hnames
  obtain ⟨-, hany⟩ := List.mem_filter.1 hname
  rw [hk, Option.any_some, Bool.and_eq_true, decide_eq_true_eq, decide_eq_true_eq] at hany
  obtain ⟨hfirst, hlast⟩ := hany
  rcases lt_or_ge x.toInt lower.toInt with hbelow | hlower
  · -- the lower bound is not missing, so its interval is the first one
    refine ⟨lower, (hr.contains_iff lower).2 ⟨Int.le_refl _, hle⟩, ?_⟩
    rcases hr.lowerInt with h | ⟨-, hleast⟩
    · cases h.symm.trans hl
      exact Nat.le_antisymm hfirst (interval_mono cuts (Int.le_of_lt hbelow))
    · omega
  · rcases lt_or_ge upper.toInt x.toInt with habove | hupper
    · refine ⟨upper, (hr.contains_iff upper).2 ⟨hle, Int.le_refl _⟩, ?_⟩
      rcases hr.upperInt with h | ⟨-, hgreatest⟩
      · cases h.symm.trans hu
        exact Nat.le_antisymm (interval_mono cuts (Int.le_of_lt habove)) hlast
      · omega
    · exact ⟨x, (hr.contains_iff x).2 ⟨hlower, hupper⟩, rfl⟩

/-- **When a range keeps the target of an integer**: when an integer that belongs to it is in the
range, or the algorithm hashes.  The range holds an integer, and where it misses a bound it holds
one that belongs to the target. -/
theorem mem_rangeTargets_iff (hvalid : a.IsValid) (hr : r.IsInt)
    (hne : ∃ n : Int64, r.contains (.int n) = true)
    (hx : a.target available ⟨table, column, .int x⟩ = .ok name)
    (hends : r.HasEnds ∨ ∃ m : Int64, r.contains (.int m) = true ∧
      a.target available ⟨table, column, .int m⟩ = .ok name)
    (hnames : a.rangeTargets available r = .ok names) :
    name ∈ names ↔ a.Hashes ∨ ∃ m : Int64, r.contains (.int m) = true ∧
      a.target available ⟨table, column, .int m⟩ = .ok name := by
  obtain ⟨k, hnumber, hfind⟩ := target_eq_ok.1 hx
  obtain ⟨havailable, hk⟩ := findTarget?_spec hfind
  obtain ⟨n, hn⟩ := hne
  obtain ⟨lower, upper, hruns⟩ := Range.exists_runsBetween hr hn
  have hle : lower.toInt ≤ upper.toInt := by
    obtain ⟨hlower, hupper⟩ := (hruns.contains_iff n).1 hn
    exact Int.le_trans hlower hupper
  constructor
  · intro hname
    cases a with
    | mod count =>
        rcases hends with ⟨hlower, hupper⟩ | hkept
        · cases hnames
          cases hnumber
          have hclosed := hruns.closedInts? (Range.isInt_of_ne_unbounded hr.1 hlower)
            (Range.isInt_of_ne_unbounded hr.2 hupper)
          obtain ⟨m, hm, hsame⟩ :=
            exists_of_mem_modRangeTargets hvalid hruns hle hclosed hk hname
          exact .inr ⟨m, hm, target_congr hsame hx⟩
        · exact .inr hkept
    | hashMod count => exact .inl trivial
    | crc32Mod count => exact .inl trivial
    | volumeRange cuts =>
        cases hnumber
        obtain ⟨m, hm, hsame⟩ := exists_of_mem_intervalRangeTargets hruns hle hk hnames hname
        exact .inr ⟨m, hm, target_congr (congrArg Except.ok hsame) hx⟩
    | boundaryRange cuts =>
        cases hnumber
        obtain ⟨m, hm, hsame⟩ := exists_of_mem_intervalRangeTargets hruns hle hk hnames hname
        exact .inr ⟨m, hm, target_congr (congrArg Except.ok hsame) hx⟩
  · rintro (hhashes | ⟨m, hm, htarget⟩)
    · cases a with
      | hashMod count =>
          cases hnames
          exact havailable
      | crc32Mod count =>
          cases hnames
          exact havailable
      | _ => exact hhashes.elim
    · exact mem_rangeTargets hvalid hr hm htarget hnames

end Algorithm

namespace Strategy

open Constraint (Joins)

variable {algorithm : Algorithm} {available names : List String} {table column name : String}
  {ks : List Constraint} {k : Constraint} {x y : Int64}

/-- The target that a single value leaves is its own. -/
theorem target_of_targets_single {v : Value}
    (h : (standard column algorithm).targets available table (some (.oneOf [v])) = .ok names)
    (hname : name ∈ names) : algorithm.target available ⟨table, column, v⟩ = .ok name := by
  obtain ⟨picked, hpicked, h⟩ := Outcome.bind_eq_ok.1 h
  cases h
  obtain ⟨w, hw, htarget⟩ := Outcome.exists_of_mem_right hpicked
    (List.elem_iff.1 (List.mem_filter.1 hname).2)
  cases List.mem_singleton.1 hw
  exact htarget

/-- **When constraints that are joined keep the target of two integers**, one of which meets each of
them. -/
theorem mem_targets_iff (hvalid : algorithm.IsValid) (h : Joins ks k)
    (hown : ∀ d ∈ ks, d.Meets x ∨ d.Meets y) (hempty : k.isEmpty = false)
    (hx : algorithm.target available ⟨table, column, .int x⟩ = .ok name)
    (hy : algorithm.target available ⟨table, column, .int y⟩ = .ok name)
    (hnames : (standard column algorithm).targets available table (some k) = .ok names) :
    name ∈ names ↔ algorithm.Hashes ∧ k.range?.isSome = true ∨
      ∃ m, k.Meets m ∧ algorithm.target available ⟨table, column, .int m⟩ = .ok name := by
  obtain ⟨_, -, hfind⟩ := Algorithm.target_eq_ok.1 hx
  have havailable := (Algorithm.findTarget?_spec hfind).1
  obtain ⟨picked, hpicked, hnames⟩ := Outcome.bind_eq_ok.1 hnames
  cases hnames
  have hmem : name ∈ available.filter (fun name => picked.contains name) ↔ name ∈ picked := by
    rw [List.mem_filter, List.contains_iff_mem]
    exact and_iff_right havailable
  rw [hmem]
  cases k with
  | oneOf values =>
      constructor
      · intro hname
        obtain ⟨v, hv, htarget⟩ := Outcome.exists_of_mem_right hpicked hname
        obtain ⟨m, rfl⟩ := h.ints v hv
        exact .inr ⟨m, hv, htarget⟩
      · rintro (⟨-, hrange⟩ | ⟨m, hm, htarget⟩)
        · cases hrange
        · obtain ⟨found, hfound, hvalue⟩ := Outcome.exists_of_mem_left hpicked hm
          cases hvalue.symm.trans htarget
          exact hfound
  | within r =>
      have hr : r.IsInt := h.ints
      have hisEmpty : r.isEmpty = false := hempty
      rw [Strategy.picked, hisEmpty, if_neg Bool.false_ne_true] at hpicked
      have hmeets (m : Int64) : (Constraint.within r).Meets m ↔ r.contains (.int m) = true :=
        and_iff_right hr
      have hne : ∃ n : Int64, r.contains (.int n) = true :=
        ((h.isEmpty_eq_false_iff hown).1 hempty).imp fun m hm => hm.2
      have hends : r.HasEnds ∨ ∃ m : Int64, r.contains (.int m) = true ∧
          algorithm.target available ⟨table, column, .int m⟩ = .ok name := by
        by_cases hends : r.HasEnds
        · exact .inl hends
        · rcases h.meets_of_open hown rfl hends with hm | hm
          · exact .inr ⟨x, hm.2, hx⟩
          · exact .inr ⟨y, hm.2, hy⟩
      rw [Algorithm.mem_rangeTargets_iff hvalid hr hne hx hends hpicked]
      simp only [hmeets, Constraint.range?, Option.isSome_some, and_true]

end Strategy

end ShardedSql
