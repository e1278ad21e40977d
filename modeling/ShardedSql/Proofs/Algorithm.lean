/-
**The target of an integer is among those of every range that holds it.**

The remainders that the integers of a range leave are found by their distance from the least one,
and the intervals that they fall into lie between those of the least and the largest.

Main definitions:

* `ShardedSql.Algorithm.IsValid` — the count that remainders are taken by is one of a configuration;
* `ShardedSql.Strategy.IsValid` — the same of the algorithm of a strategy.

Main results:

* `ShardedSql.Algorithm.mem_rangeTargets` — **no range loses the target of an integer in it**;
* `ShardedSql.Strategy.targets_of_meets` — **a constraint leaves the target of every integer that
  meets it**;
* `ShardedSql.AlgorithmType.isValid_make` — algorithms are made with such counts only.
-/

import ShardedSql.Proofs.Range

set_option relaxedAutoImplicit false
set_option autoImplicit false

namespace ShardedSql

namespace Algorithm

/-! ### Targets -/

theorem findTarget?_spec {available : List String} {k : Nat} {name : String}
    (h : findTarget? available k = some name) :
    name ∈ available ∧ targetNumber? name = some k :=
  ⟨List.mem_of_find?_eq_some h, by simpa using List.find?_some h⟩

/-- The target of a value is the first with the number of the value. -/
theorem target_eq_ok {a : Algorithm} {available : List String} {p : ShardingPoint}
    {name : String} :
    a.target available p = .ok name ↔
      ∃ k, a.number p.value = .ok k ∧ findTarget? available k = some name := by
  rw [target, Outcome.bind_eq_ok]
  refine exists_congr fun k => and_congr_right fun _ => ?_
  cases findTarget? available k with
  | none => simp [throw, throwThe, MonadExceptOf.throw]
  | some found => simp [pure, Except.pure]

theorem mem_targetsWith {available : List String} {p : Nat → Bool} {name : String} {k : Nat}
    (hname : name ∈ available) (hk : targetNumber? name = some k) (hp : p k = true) :
    name ∈ targetsWith available p :=
  List.mem_filter.2 ⟨hname, by rw [hk]; exact hp⟩

/-! ### Remainders -/

/-- The count by which remainders are taken is above zero, and a word of 64 bits. -/
def IsValid : Algorithm → Prop
  | .mod count => 0 < count ∧ count ≤ Text.maxUInt64
  | _ => True

theorem divisor_pos {count : Nat} (hpos : 0 < count) (hword : count ≤ Text.maxUInt64) :
    0 < divisor count := by
  unfold divisor
  split
  · exact hpos
  · omega

/-- The remainder of an integer is among those that the integers around it leave. -/
theorem leavesRemainder_emod {d : Nat} (hd : 0 < d) {lower n upper : Int} (hlower : lower ≤ n)
    (hupper : n ≤ upper) : leavesRemainder d lower upper (n % d).toNat = true := by
  have hd' : (0 : Int) < d := by omega
  have hnonneg := Int.emod_nonneg n (by omega : (d : Int) ≠ 0)
  have hlt := Int.emod_lt_of_pos n hd'
  have hcast : ((n % (d : Int)).toNat : Int) = n % d := Int.toNat_of_nonneg hnonneg
  have hmod : (n % (d : Int) - lower) % d = (n - lower) % d := by
    rw [Int.sub_emod, Int.emod_emod, ← Int.sub_emod]
  have hle : (n - lower) % (d : Int) ≤ n - lower := by
    have hdiv := Int.emod_add_mul_ediv (n - lower) d
    have hquot : 0 ≤ (n - lower) / (d : Int) := Int.ediv_nonneg (by omega) (by omega)
    have hprod : 0 ≤ (d : Int) * ((n - lower) / d) := Int.mul_nonneg (by omega) hquot
    omega
  -- the first integer from `lower` on with this remainder is not above `n`
  rw [leavesRemainder, Bool.and_eq_true, decide_eq_true_eq, decide_eq_true_eq, hcast, hmod]
  omega

/-- No range loses the remainder of an integer in it. -/
theorem mem_modRangeTargets {count : Nat} {available : List String} {r : Range} {n : Int64}
    {name : String} (hvalid : (mod count).IsValid) (hr : r.IsInt)
    (hn : r.contains (.int n) = true) (hname : name ∈ available)
    (hk : targetNumber? name = some (n.toInt % (divisor count : Int)).toNat) :
    name ∈ modRangeTargets count available r := by
  unfold modRangeTargets
  cases hints : r.closedInts? with
  | none => exact hname
  | some p =>
      obtain ⟨lower, upper⟩ := p
      obtain ⟨hlower, hupper⟩ := Range.closedInts?_of_contains hr hn hints
      simp only
      rw [if_neg (by omega)]
      split
      · exact hname
      · exact mem_targetsWith hname hk
          (leavesRemainder_emod (divisor_pos hvalid.1 hvalid.2) hlower hupper)

/-! ### Intervals -/

theorem interval_mono (cuts : List Int) {a b : Int} (h : a ≤ b) :
    interval cuts a ≤ interval cuts b := by
  unfold interval
  refine List.countP_mono_left fun cut _ hcut => ?_
  simp only [decide_eq_true_eq] at hcut ⊢
  omega

theorem interval_le_length (cuts : List Int) (a : Int) : interval cuts a ≤ cuts.length :=
  List.countP_le_length

/-- The least integer of a lower bound is not above an integer that is not below the bound. -/
theorem lowerInt_le {b : Bound} (hb : b.IsIntOrOpen) {n : Int64} (hn : Range.Above b n)
    {lower : Option Int} (h : lowerInt b = .ok lower) : ∀ l ∈ lower, l ≤ n.toInt := by
  have hfits := Signed.toInt_fits n
  intro l hl
  rcases hb.cases with rfl | ⟨m, rfl | rfl⟩
  · cases h
    cases hl
  · cases h
    cases hl
    exact hn
  · cases h
    cases hl
    have hlt : m.toInt < n.toInt := hn
    have hm := Signed.toInt_fits m
    rw [Signed.held_of_fits (by omega)]
    omega

/-- The largest integer of an upper bound is not below an integer that is not above the bound. -/
theorem le_upperInt {b : Bound} (hb : b.IsIntOrOpen) {n : Int64} (hn : Range.Below b n)
    {upper : Option Int} (h : upperInt b = .ok upper) : ∀ u ∈ upper, n.toInt ≤ u := by
  have hfits := Signed.toInt_fits n
  intro u hu
  rcases hb.cases with rfl | ⟨m, rfl | rfl⟩
  · cases h
    cases hu
  · cases h
    cases hu
    exact hn
  · cases h
    cases hu
    have hlt : n.toInt < m.toInt := hn
    have hm := Signed.toInt_fits m
    rw [Signed.held_of_fits (by omega)]
    omega

/-- No range loses the interval of an integer in it. -/
theorem mem_intervalRangeTargets {cuts : List Int} {available names : List String} {r : Range}
    {n : Int64} {name : String} (hr : r.IsInt) (hn : r.contains (.int n) = true)
    (hname : name ∈ available) (hk : targetNumber? name = some (interval cuts n.toInt))
    (hnames : intervalRangeTargets cuts available r = .ok names) : name ∈ names := by
  obtain ⟨habove, hbelow⟩ := (Range.contains_int_iff hr n).1 hn
  obtain ⟨lower, hlower, hnames⟩ := Outcome.bind_eq_ok.1 hnames
  obtain ⟨upper, hupper, hnames⟩ := Outcome.bind_eq_ok.1 hnames
  cases hnames
  refine mem_targetsWith hname hk ?_
  rw [Bool.and_eq_true, decide_eq_true_eq, decide_eq_true_eq]
  constructor
  · cases lower with
    | none => exact Nat.zero_le _
    | some l => exact interval_mono cuts (lowerInt_le hr.1 habove hlower l rfl)
  · cases upper with
    | none => exact interval_le_length cuts _
    | some u => exact interval_mono cuts (le_upperInt hr.2 hbelow hupper u rfl)

/-! ### Algorithms -/

/-- **No range loses the target of an integer in it.** -/
theorem mem_rangeTargets {a : Algorithm} (hvalid : a.IsValid) {available names : List String}
    {r : Range} {n : Int64} {table column name : String} (hr : r.IsInt)
    (hn : r.contains (.int n) = true)
    (htarget : a.target available ⟨table, column, .int n⟩ = .ok name)
    (hnames : a.rangeTargets available r = .ok names) : name ∈ names := by
  obtain ⟨k, hnumber, hfind⟩ := target_eq_ok.1 htarget
  obtain ⟨hname, hk⟩ := findTarget?_spec hfind
  cases a with
  | mod count =>
      cases hnumber
      cases hnames
      exact mem_modRangeTargets hvalid hr hn hname hk
  | hashMod count =>
      cases hnames
      exact hname
  | crc32Mod count =>
      cases hnames
      exact hname
  | volumeRange cuts =>
      cases hnumber
      exact mem_intervalRangeTargets hr hn hname hk hnames
  | boundaryRange cuts =>
      cases hnumber
      exact mem_intervalRangeTargets hr hn hname hk hnames

end Algorithm

/-! ### Strategies -/

namespace Strategy

/-- The algorithm of the strategy, if it has one, is valid. -/
def IsValid : Strategy → Prop
  | .standard _ algorithm => algorithm.IsValid
  | .none => True

/-- The targets that are left stand in the order of those that are available. -/
theorem targets_sublist {s : Strategy} {available names : List String} {table : String}
    {c : Option Constraint} (h : s.targets available table c = .ok names) :
    names.Sublist available := by
  cases s with
  | none =>
      cases h
      exact List.Sublist.refl available
  | standard column algorithm =>
      cases c with
      | none =>
          cases h
          exact List.Sublist.refl available
      | some c =>
          obtain ⟨picked, -, h⟩ := Outcome.bind_eq_ok.1 h
          cases h
          exact List.filter_sublist

theorem targets_subset {s : Strategy} {available names : List String} {table : String}
    {c : Option Constraint} (h : s.targets available table c = .ok names) :
    ∀ name ∈ names, name ∈ available :=
  fun _ hname => (targets_sublist h).mem hname

/-- A single value leaves a single target. -/
theorem exists_of_targets_single {column : String} {algorithm : Algorithm}
    {available names : List String} {table : String} {v : Value}
    (h : (standard column algorithm).targets available table (some (.oneOf [v])) = .ok names) :
    ∃ name ∈ names, ∀ other ∈ names, other = name := by
  obtain ⟨picked, hpicked, h⟩ := Outcome.bind_eq_ok.1 h
  cases h
  obtain ⟨name, rest, htarget, hrest, rfl⟩ :=
    List.forall₂_cons_left_iff.1 (Outcome.mapM_eq_ok.1 hpicked)
  cases List.forall₂_nil_left_iff.1 hrest
  obtain ⟨k, -, hfind⟩ := Algorithm.target_eq_ok.1 htarget
  refine ⟨name, List.mem_filter.2 ⟨(Algorithm.findTarget?_spec hfind).1, ?_⟩, fun other h => ?_⟩
  · exact List.elem_eq_true_of_mem (List.mem_singleton.2 rfl)
  · exact List.mem_singleton.1 (List.elem_iff.1 (List.mem_filter.1 h).2)

/-- Single values leave a target where there is one. -/
theorem targets_ne_nil {s : Strategy} {available names : List String} {table : String}
    {c : Option Constraint} (hne : available ≠ []) (hc : ∀ k ∈ c, ∃ v, k = .oneOf [v])
    (h : s.targets available table c = .ok names) : names ≠ [] := by
  cases s with
  | none =>
      cases h
      exact hne
  | standard column algorithm =>
      cases c with
      | none =>
          cases h
          exact hne
      | some k =>
          obtain ⟨v, rfl⟩ := hc k rfl
          obtain ⟨name, hname, -⟩ := exists_of_targets_single h
          exact List.ne_nil_of_mem hname

/-- **A constraint leaves the target of every integer that meets it.** -/
theorem targets_of_meets {s : Strategy} (hvalid : s.IsValid) {available names pins : List String}
    {table : String} {c : Option Constraint} {n : Int64} (hc : ∀ k ∈ c, k.Meets n)
    (hnames : s.targets available table c = .ok names)
    (hpins : s.targets available table (some (.oneOf [.int n])) = .ok pins) :
    ∀ name ∈ pins, name ∈ names := by
  have hsubset := targets_subset hpins
  cases s with
  | none =>
      cases hnames
      exact hsubset
  | standard column algorithm =>
      cases c with
      | none =>
          cases hnames
          exact hsubset
      | some c =>
          obtain ⟨picked, hpicked, hnames⟩ := Outcome.bind_eq_ok.1 hnames
          obtain ⟨pinned, hpinned, hpins⟩ := Outcome.bind_eq_ok.1 hpins
          cases hnames
          cases hpins
          intro name hname
          obtain ⟨v, hv, htarget⟩ := Outcome.exists_of_mem_right hpinned
            (List.elem_iff.1 (List.mem_filter.1 hname).2)
          cases List.mem_singleton.1 hv
          -- the target of the integer is picked too, as one of its values or in its range
          refine List.mem_filter.2 ⟨hsubset name hname, List.elem_eq_true_of_mem ?_⟩
          have hmeets := hc c rfl
          cases c with
          | oneOf values =>
              obtain ⟨found, hfound, hvalue⟩ := Outcome.exists_of_mem_left hpicked hmeets
              rw [htarget] at hvalue
              cases hvalue
              exact hfound
          | within r =>
              rw [Strategy.picked, Range.isEmpty_of_contains hmeets.1 hmeets.2,
                if_neg Bool.false_ne_true] at hpicked
              exact Algorithm.mem_rangeTargets hvalid hmeets.1 hmeets.2 htarget hpicked

end Strategy

end ShardedSql
