/-
**A range is narrowed to exactly the targets that its integers belong to.**

That no target is lost needs little; that none is left over needs more.  Remainders have to be taken
by a signed count, with a target for no other number, and the bounds have to be integers.  For
intervals the least integer of 64 bits may not be a cut: a range without a lower bound is searched
from the first interval on, which would hold no integer then.

Main definitions:

* `ShardedSql.Range.RunsBetween` — the integers of a range are those between two integers;
* `ShardedSql.Algorithm.Reaches` — some integer of a range belongs to the target of a name;
* `ShardedSql.Algorithm.Narrows` — what an algorithm needs of its targets and of a range.

Main results:

* `ShardedSql.Range.exists_runsBetween` — a range of integers that holds one has ends;
* `ShardedSql.Algorithm.leavesRemainder_iff` — a remainder is left when some integer leaves it;
* `ShardedSql.AlgorithmType.narrowing_exact` — **no target is missed, and none is superfluous**.
-/

import ShardedSql.Proofs.Algorithm.Cuts
import ShardedSql.Proofs.Rule.Build

set_option relaxedAutoImplicit false
set_option autoImplicit false

namespace ShardedSql

/-! ### Ends of a range -/

theorem Bound.IsIntOrOpen.of_isInt {b : Bound} (h : b.isInt = true) : b.IsIntOrOpen := by
  intro v hv
  rw [Bound.isInt, hv] at h
  cases v with
  | int n => exact ⟨n, rfl⟩
  | _ => cases h

theorem Signed.exists_word {n : Int} (h : Signed.least ≤ n ∧ n ≤ Signed.greatest) :
    ∃ w : Int64, w.toInt = n := by
  refine ⟨Int64.ofInt n, Signed.word?_eq_some_iff.1 ?_⟩
  rw [Signed.word?, if_pos h]

namespace Range

/-- The integers of the range are those from `lower` to `upper`, which stand for its bounds: a
missing bound is the last integer there is. -/
structure RunsBetween (r : Range) (lower upper : Int64) : Prop where
  contains_iff : ∀ n : Int64,
    r.contains (.int n) = true ↔ lower.toInt ≤ n.toInt ∧ n.toInt ≤ upper.toInt
  lowerInt : Algorithm.lowerInt r.lower = .ok (some lower.toInt) ∨
    Algorithm.lowerInt r.lower = .ok none ∧ lower.toInt = Signed.least
  upperInt : Algorithm.upperInt r.upper = .ok (some upper.toInt) ∨
    Algorithm.upperInt r.upper = .ok none ∧ upper.toInt = Signed.greatest
  closedInts? : r.lower.isInt = true → r.upper.isInt = true →
    r.closedInts? = some (lower, upper)

/-- The lower end that a lower bound stands for. -/
theorem exists_lowerEnd {b : Bound} (hb : b.IsIntOrOpen) {n : Int64} (hn : Above b n) :
    ∃ l : Int64, (∀ m, Above b m ↔ l.toInt ≤ m.toInt) ∧
      (Algorithm.lowerInt b = .ok (some l.toInt) ∨
        Algorithm.lowerInt b = .ok none ∧ l.toInt = Signed.least) ∧
      (b.isInt = true → leastInt? b = some l) := by
  have hfits := Signed.toInt_fits n
  rcases hb.cases with rfl | ⟨m, rfl | rfl⟩
  · obtain ⟨l, hl⟩ := Signed.exists_word (n := Signed.least) (by decide)
    exact ⟨l, fun m => ⟨fun _ => hl ▸ (Signed.toInt_fits m).1, fun _ => trivial⟩,
      .inr ⟨rfl, hl⟩, fun h => by cases h⟩
  · exact ⟨m, fun _ => Iff.rfl, .inl rfl, fun _ => rfl⟩
  · -- an integer above the bound leaves room for the next one
    have hlt : m.toInt < n.toInt := hn
    have hm := Signed.toInt_fits m
    have hnext : Signed.least ≤ m.toInt + 1 ∧ m.toInt + 1 ≤ Signed.greatest := by omega
    obtain ⟨l, hl⟩ := Signed.exists_word hnext
    refine ⟨l, fun k => ?_, .inl ?_, fun _ => Signed.word?_eq_some_iff.2 hl⟩
    · rw [hl]
      exact Int.lt_iff_add_one_le
    · rw [hl, ← Signed.held_of_fits hnext]
      rfl

/-- The upper end that an upper bound stands for. -/
theorem exists_upperEnd {b : Bound} (hb : b.IsIntOrOpen) {n : Int64} (hn : Below b n) :
    ∃ u : Int64, (∀ m, Below b m ↔ m.toInt ≤ u.toInt) ∧
      (Algorithm.upperInt b = .ok (some u.toInt) ∨
        Algorithm.upperInt b = .ok none ∧ u.toInt = Signed.greatest) ∧
      (b.isInt = true → largestInt? b = some u) := by
  have hfits := Signed.toInt_fits n
  rcases hb.cases with rfl | ⟨m, rfl | rfl⟩
  · obtain ⟨u, hu⟩ := Signed.exists_word (n := Signed.greatest) (by decide)
    exact ⟨u, fun m => ⟨fun _ => hu ▸ (Signed.toInt_fits m).2, fun _ => trivial⟩,
      .inr ⟨rfl, hu⟩, fun h => by cases h⟩
  · exact ⟨m, fun _ => Iff.rfl, .inl rfl, fun _ => rfl⟩
  · have hlt : n.toInt < m.toInt := hn
    have hm := Signed.toInt_fits m
    have hprevious : Signed.least ≤ m.toInt - 1 ∧ m.toInt - 1 ≤ Signed.greatest := by omega
    obtain ⟨u, hu⟩ := Signed.exists_word hprevious
    refine ⟨u, fun k => ?_, .inl ?_, fun _ => Signed.word?_eq_some_iff.2 hu⟩
    · rw [hu]
      exact ⟨Int.le_sub_one_of_lt, Int.lt_of_le_sub_one⟩
    · rw [hu, ← Signed.held_of_fits hprevious]
      rfl

/-- A range of integers that holds one has ends. -/
theorem exists_runsBetween {r : Range} (hr : r.IsInt) {n : Int64}
    (hn : r.contains (.int n) = true) : ∃ lower upper, r.RunsBetween lower upper := by
  obtain ⟨habove, hbelow⟩ := (contains_int_iff hr n).1 hn
  obtain ⟨lower, hlower, hlowerInt, hleast⟩ := exists_lowerEnd hr.1 habove
  obtain ⟨upper, hupper, hupperInt, hlargest⟩ := exists_upperEnd hr.2 hbelow
  refine ⟨lower, upper, fun m => ?_, hlowerInt, hupperInt, fun hl hu => ?_⟩
  · rw [contains_int_iff hr, hlower, hupper]
  · rw [closedInts?, hleast hl, hlargest hu]
    rfl

end Range

namespace Algorithm

/-- Some integer of the range belongs to the target of a name. -/
def Reaches (a : Algorithm) (r : Range) (name : String) : Prop :=
  ∃ (n : Int64) (k : Nat), r.contains (.int n) = true ∧ a.number (.int n) = .ok k ∧
    targetNumber? name = some k

/-- What an algorithm needs of its settings, the targets and the range to narrow the range exactly.
Remainders are taken by a signed count, every target has one of them as its number, and both bounds
are integers.  Among cuts the least integer is not, and the bounds are integers or missing. -/
def Narrows (available : List String) (r : Range) : Algorithm → Prop
  | .mod count => count ≤ Text.maxInt64 ∧
      (∀ name ∈ available, ∃ k < count, targetNumber? name = some k) ∧
      r.lower.isInt = true ∧ r.upper.isInt = true
  | .volumeRange cuts => (∀ cut ∈ cuts, Signed.least < cut) ∧ r.IsInt
  | .boundaryRange cuts => (∀ cut ∈ cuts, Signed.least < cut) ∧ r.IsInt
  | _ => False

/-! ### Remainders -/

/-- A remainder is left when some integer leaves it. -/
theorem leavesRemainder_iff {d : Nat} (hd : 0 < d) {lower upper : Int} {k : Nat} :
    leavesRemainder d lower upper k = true ↔
      ∃ n : Int, lower ≤ n ∧ n ≤ upper ∧ (n % (d : Int)).toNat = k := by
  constructor
  · intro h
    rw [leavesRemainder, Bool.and_eq_true, decide_eq_true_eq, decide_eq_true_eq] at h
    obtain ⟨hk, hdistance⟩ := h
    have hnonneg := Int.emod_nonneg ((k : Int) - lower) (by omega : (d : Int) ≠ 0)
    -- the first integer from `lower` on with the remainder
    refine ⟨lower + ((k : Int) - lower) % d, by omega, by omega, ?_⟩
    have hsum : lower + ((k : Int) - lower) = k := by omega
    rw [Int.add_emod_emod, hsum, Int.emod_eq_of_lt (by omega) (by omega), Int.toNat_natCast]
  · rintro ⟨n, hlower, hupper, rfl⟩
    exact leavesRemainder_emod hd hlower hupper

theorem leavesRemainder_of_le {d : Nat} {lower upper : Int} {k : Nat} (hk : k < d)
    (h : (d : Int) - 1 ≤ upper - lower) : leavesRemainder d lower upper k = true := by
  have hlt := Int.emod_lt_of_pos ((k : Int) - lower) (by omega : (0 : Int) < d)
  rw [leavesRemainder, Bool.and_eq_true, decide_eq_true_eq, decide_eq_true_eq]
  exact ⟨hk, by omega⟩

theorem mod_reaches_iff {count : Nat} (hpos : 0 < count) (hmax : count ≤ Text.maxInt64)
    {r : Range} {lower upper : Int64} (hr : r.RunsBetween lower upper) {name : String} {k : Nat}
    (hk : targetNumber? name = some k) :
    (mod count).Reaches r name ↔ leavesRemainder count lower.toInt upper.toInt k = true := by
  rw [leavesRemainder_iff hpos]
  have hdivisor : divisor count = count := if_pos hmax
  constructor
  · rintro ⟨n, j, hn, hnumber, hj⟩
    obtain ⟨hlower, hupper⟩ := (hr.contains_iff n).1 hn
    cases hk.symm.trans hj
    refine ⟨n.toInt, hlower, hupper, ?_⟩
    rw [← hdivisor]
    exact Except.ok.inj hnumber
  · rintro ⟨n, hlower, hupper, hn⟩
    have hl := Signed.toInt_fits lower
    have hu := Signed.toInt_fits upper
    obtain ⟨w, rfl⟩ := Signed.exists_word (n := n) (by omega)
    have hnumber : (mod count).number (.int w) = .ok (w.toInt % (divisor count : Int)).toNat := rfl
    rw [hdivisor, hn] at hnumber
    exact ⟨w, k, (hr.contains_iff w).2 ⟨hlower, hupper⟩, hnumber, hk⟩

/-- A range of which every remainder is left is as exact as the search for the remainders. -/
theorem modRangeTargets_exact {count : Nat} (hpos : 0 < count) {available : List String}
    {r : Range} (h : (mod count).Narrows available r) {lower upper : Int64}
    (hr : r.RunsBetween lower upper) (hle : lower.toInt ≤ upper.toInt) :
    ∃ keep : String → Bool, modRangeTargets count available r = available.filter keep ∧
      ∀ name ∈ available, keep name = true ↔ (mod count).Reaches r name := by
  obtain ⟨hmax, hnumbers, hlower, hupper⟩ := h
  have hdivisor : divisor count = count := if_pos hmax
  rw [modRangeTargets, hr.closedInts? hlower hupper]
  simp only
  rw [if_neg (by omega)]
  split
  · -- every remainder is left
    refine ⟨fun _ => true, (List.filter_true available).symm, fun name hname => ?_⟩
    obtain ⟨k, hk, hnumber⟩ := hnumbers name hname
    rw [mod_reaches_iff hpos hmax hr hnumber]
    exact ⟨fun _ => leavesRemainder_of_le hk (by omega), fun _ => rfl⟩
  · refine ⟨_, rfl, fun name hname => ?_⟩
    obtain ⟨k, hk, hnumber⟩ := hnumbers name hname
    rw [mod_reaches_iff hpos hmax hr hnumber, hnumber, hdivisor]
    rfl

/-! ### Intervals -/

theorem intervalRangeTargets_exact {cuts : List Int} (hcuts : AreCuts cuts)
    (hleast : ∀ cut ∈ cuts, Signed.least < cut) (available : List String) {r : Range}
    {lower upper : Int64} (hr : r.RunsBetween lower upper) (hle : lower.toInt ≤ upper.toInt) :
    ∃ keep : String → Bool, intervalRangeTargets cuts available r = .ok (available.filter keep) ∧
      ∀ name, keep name = true ↔ ∃ n : Int64, r.contains (.int n) = true ∧
        targetNumber? name = some (interval cuts n.toInt) := by
  -- a missing bound is as good as the last integer there is
  have hfirst : ∃ l, lowerInt r.lower = .ok l ∧
      (l.map (interval cuts)).getD 0 = interval cuts lower.toInt := by
    rcases hr.lowerInt with h | ⟨h, hl⟩
    · exact ⟨_, h, rfl⟩
    · exact ⟨_, h, (interval_eq_zero fun cut hcut => hl ▸ hleast cut hcut).symm⟩
  have hlast : ∃ u, upperInt r.upper = .ok u ∧
      (u.map (interval cuts)).getD cuts.length = interval cuts upper.toInt := by
    rcases hr.upperInt with h | ⟨h, hu⟩
    · exact ⟨_, h, rfl⟩
    · exact ⟨_, h, (interval_eq_length fun cut hcut => hu ▸ (hcuts.fits cut hcut).2).symm⟩
  obtain ⟨l, hl, hfirst⟩ := hfirst
  obtain ⟨u, hu, hlast⟩ := hlast
  refine ⟨fun name => (targetNumber? name).any fun k =>
    interval cuts lower.toInt ≤ k && k ≤ interval cuts upper.toInt, ?_, fun name => ?_⟩
  · rw [intervalRangeTargets, hl, hu]
    simp only [bind, Except.bind, hfirst, hlast]
    rfl
  · rw [Option.any_eq_true]
    constructor
    · rintro ⟨k, hk, hbetween⟩
      rw [Bool.and_eq_true, decide_eq_true_eq, decide_eq_true_eq] at hbetween
      obtain ⟨v, hlv, hvu, rfl⟩ :=
        exists_interval_eq hcuts.ascending hle hbetween.1 hbetween.2
      have hlower := Signed.toInt_fits lower
      have hupper := Signed.toInt_fits upper
      obtain ⟨n, rfl⟩ := Signed.exists_word (n := v) (by omega)
      exact ⟨n, (hr.contains_iff n).2 ⟨hlv, hvu⟩, hk⟩
    · rintro ⟨n, hn, hk⟩
      obtain ⟨hln, hnu⟩ := (hr.contains_iff n).1 hn
      refine ⟨_, hk, ?_⟩
      rw [Bool.and_eq_true, decide_eq_true_eq, decide_eq_true_eq]
      exact ⟨interval_mono cuts hln, interval_mono cuts hnu⟩

/-- The interval of an integer is its number under either algorithm of intervals. -/
theorem reaches_iff_of_number {a : Algorithm} (cuts : List Int)
    (ha : ∀ n : Int64, a.number (.int n) = .ok (interval cuts n.toInt)) {r : Range}
    {name : String} :
    a.Reaches r name ↔ ∃ n : Int64, r.contains (.int n) = true ∧
      targetNumber? name = some (interval cuts n.toInt) := by
  constructor
  · rintro ⟨n, k, hn, hnumber, hk⟩
    cases (ha n).symm.trans hnumber
    exact ⟨n, hn, hk⟩
  · rintro ⟨n, hn, hk⟩
    exact ⟨n, _, hn, ha n, hk⟩

end Algorithm

/-! ### Algorithms -/

namespace AlgorithmType

open Algorithm

/-- **A range is narrowed to exactly the targets that its integers belong to**, in the order of
those that are available. -/
theorem narrowing_exact {t : AlgorithmType} {props : Properties} {a : Algorithm}
    (hmake : t.make props = .ok a) {available : List String} {r : Range}
    (h : a.Narrows available r) (hne : ∃ n : Int64, r.contains (.int n) = true) :
    ∃ keep : String → Bool, a.rangeTargets available r = .ok (available.filter keep) ∧
      ∀ name ∈ available, keep name = true ↔ a.Reaches r name := by
  obtain ⟨n, hn⟩ := hne
  have hends (hr : r.IsInt) : ∃ lower upper, r.RunsBetween lower upper ∧
      lower.toInt ≤ upper.toInt := by
    obtain ⟨lower, upper, hends⟩ := Range.exists_runsBetween hr hn
    obtain ⟨hlower, hupper⟩ := (hends.contains_iff n).1 hn
    exact ⟨lower, upper, hends, Int.le_trans hlower hupper⟩
  cases a with
  | mod count =>
      obtain ⟨hpos, -⟩ := isValid_make hmake
      obtain ⟨lower, upper, hends, hle⟩ := hends ⟨Bound.IsIntOrOpen.of_isInt h.2.2.1,
        Bound.IsIntOrOpen.of_isInt h.2.2.2⟩
      obtain ⟨keep, hkeep, hexact⟩ := modRangeTargets_exact hpos h hends hle
      exact ⟨keep, congrArg Except.ok hkeep, hexact⟩
  | volumeRange cuts =>
      obtain ⟨lower, upper, hends, hle⟩ := hends h.2
      have hcuts := areCuts_of_make hmake rfl
      obtain ⟨keep, hkeep, hexact⟩ :=
        intervalRangeTargets_exact hcuts h.1 available hends hle
      refine ⟨keep, hkeep, fun name _ => ?_⟩
      rw [hexact, reaches_iff_of_number cuts fun _ => rfl]
  | boundaryRange cuts =>
      obtain ⟨lower, upper, hends, hle⟩ := hends h.2
      have hcuts := areCuts_of_make hmake rfl
      obtain ⟨keep, hkeep, hexact⟩ :=
        intervalRangeTargets_exact hcuts h.1 available hends hle
      refine ⟨keep, hkeep, fun name _ => ?_⟩
      rw [hexact, reaches_iff_of_number cuts fun _ => rfl]
  | hashMod count => cases h
  | crc32Mod count => cases h

/-- The remainders of -1 and 0, and the last interval, which holds the greatest integer only. -/
theorem narrowing_exact_ends :
    (∃ keep : String → Bool,
      (Algorithm.mod 4).rangeTargets ["t_0", "t_1", "t_2", "t_3"]
          ⟨.exclusive (.int (-2)), .inclusive (.int 0)⟩ =
        .ok (["t_0", "t_1", "t_2", "t_3"].filter keep) ∧
      ∀ name ∈ ["t_0", "t_1", "t_2", "t_3"], keep name = true ↔
        (Algorithm.mod 4).Reaches ⟨.exclusive (.int (-2)), .inclusive (.int 0)⟩ name) ∧
    ∃ keep : String → Bool,
      (Algorithm.boundaryRange [0, 9223372036854775807]).rangeTargets ["t_2", "u", "t_1"]
          ⟨.exclusive (.int 9223372036854775806), .unbounded⟩ =
        .ok (["t_2", "u", "t_1"].filter keep) ∧
      ∀ name ∈ ["t_2", "u", "t_1"], keep name = true ↔
        (Algorithm.boundaryRange [0, 9223372036854775807]).Reaches
          ⟨.exclusive (.int 9223372036854775806), .unbounded⟩ name := by
  constructor
  · have hmake : AlgorithmType.mod.make ⟨[("sharding-count", "4")]⟩ = .ok (.mod 4) := rfl
    exact narrowing_exact hmake ⟨by decide, by decide, rfl, rfl⟩ ⟨0, by decide⟩
  · have hcuts : sortedDistinct [0, 9223372036854775807] = [0, 9223372036854775807] := by
      rw [sortedDistinct, List.mergeSort_of_pairwise (by decide)]
      rfl
    have hmake : AlgorithmType.boundaryRange.make
        ⟨[("sharding-ranges", "0, 9223372036854775807")]⟩ =
          .ok (.boundaryRange [0, 9223372036854775807]) :=
      congrArg (fun cuts => Except.ok (Algorithm.boundaryRange cuts)) hcuts
    exact narrowing_exact hmake ⟨by decide, Bound.isIntOrOpen_exclusive _,
      Bound.isIntOrOpen_unbounded⟩ ⟨9223372036854775807, by decide⟩

end AlgorithmType

end ShardedSql
