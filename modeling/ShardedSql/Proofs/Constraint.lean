/-
**Constraints on integers may be intersected in any order.**

The intersections of constraints in different orders are not equal: a list keeps the order and the
repetitions of the first list.  But they are alike.  They are lists of the same integers, or they
are the same range: of several bounds on one side the tightest is left, whichever comes first.  And
a constraint that no integer meets stays one that no integer meets, so that it does not matter when
emptiness is looked for.

Main definitions:

* `ShardedSql.Bound.tightness` — how tight a bound on integers is;
* `ShardedSql.Range.HasEnds` — a range has bounds on both sides;
* `ShardedSql.Constraint.IsOnInts` — a constraint on integers;
* `ShardedSql.Constraint.Alike` — **constraints that are lists of the same integers, or the same
  range**.

Main results:

* `ShardedSql.Range.intersect_right_comm` — ranges may be intersected in any order;
* `ShardedSql.Range.isEmpty_iff` — **a range is found empty exactly when it has two ends and holds
  no integer**;
* `ShardedSql.Constraint.alike_intersect_swap` — constraints may be intersected in any order;
* `ShardedSql.Constraint.isEmpty_intersect` — an empty constraint stays empty.
-/

import ShardedSql.Proofs.Range.Intersection
import Mathlib.Data.Int.Order.Basic
import Mathlib.Order.MinMax
import Mathlib.Order.WithBot

set_option relaxedAutoImplicit false
set_option autoImplicit false

namespace ShardedSql

/-! ### Bounds -/

namespace Bound

/-- What leaving its own integer out adds to the tightness of a bound. -/
def rim (b : Bound) : Int := if b.isExclusive then 1 else 0

theorem rim_cases (b : Bound) :
    (b.isExclusive = false ∧ b.rim = 0) ∨ (b.isExclusive = true ∧ b.rim = 1) := by
  unfold rim
  cases b.isExclusive <;> simp

theorem isExclusive_eq_of_rim_eq {a b : Bound} (h : a.rim = b.rim) :
    a.isExclusive = b.isExclusive := by
  rcases a.rim_cases with ⟨hae, har⟩ | ⟨hae, har⟩ <;>
    rcases b.rim_cases with ⟨hbe, hbr⟩ | ⟨hbe, hbr⟩
  · rw [hae, hbe]
  · omega
  · omega
  · rw [hae, hbe]

/-- How tight a bound is.  On the side of lower bounds, which is 1, a larger integer is tighter, and
on the side of upper bounds, which is -1, a smaller one.  Of two bounds at the same integer the one
that leaves it out is tighter. -/
def tightness (side : Int) (b : Bound) : WithBot Int :=
  match b.value? with
  | some (.int n) => ((2 * side * n.toInt + b.rim : Int) : WithBot Int)
  | _ => ⊥

theorem tightness_of_int (side : Int) {b : Bound} {n : Int64} (h : b.value? = some (.int n)) :
    b.tightness side = ((2 * side * n.toInt + b.rim : Int) : WithBot Int) := by
  rw [tightness, h]

/-- A bound is absent, or it names an integer. -/
theorem IsIntOrOpen.value_cases {b : Bound} (h : b.IsIntOrOpen) :
    b = .unbounded ∨ ∃ n, b.value? = some (.int n) := by
  rcases h.cases with h | ⟨n, rfl | rfl⟩
  · exact .inl h
  · exact .inr ⟨n, rfl⟩
  · exact .inr ⟨n, rfl⟩

/-- A bound is told by its value and by whether it leaves it out. -/
theorem eq_of_value?_eq {a b : Bound} (hvalue : a.value? = b.value?)
    (hexclusive : a.isExclusive = b.isExclusive) : a = b := by
  cases a <;> cases b <;> cases hvalue <;> cases hexclusive <;> rfl

/-- Bounds on the same side that are equally tight are the same. -/
theorem tightness_injective {side : Int} (hside : side = 1 ∨ side = -1) {a b : Bound}
    (ha : a.IsIntOrOpen) (hb : b.IsIntOrOpen) (h : a.tightness side = b.tightness side) :
    a = b := by
  rcases ha.value_cases with rfl | ⟨m, hm⟩ <;> rcases hb.value_cases with rfl | ⟨n, hn⟩
  · rfl
  · rw [tightness_of_int side hn] at h
    exact absurd h WithBot.bot_ne_coe
  · rw [tightness_of_int side hm] at h
    exact absurd h WithBot.coe_ne_bot
  · rw [tightness_of_int side hm, tightness_of_int side hn, WithBot.coe_inj] at h
    -- the parity of the tightness tells whether the integer is left out
    have hrim : a.rim = b.rim := by
      rcases a.rim_cases with ⟨-, har⟩ | ⟨-, har⟩ <;>
        rcases b.rim_cases with ⟨-, hbr⟩ | ⟨-, hbr⟩ <;>
        rcases hside with rfl | rfl <;> omega
    have hmn : m.toInt = n.toInt := by rcases hside with rfl | rfl <;> omega
    exact eq_of_value?_eq (by rw [hm, hn, Int64.toInt_inj.1 hmn]) (isExclusive_eq_of_rim_eq hrim)

end Bound

namespace Range

/-- The side on which an outcome of comparing makes the first of two bounds tighter. -/
def side (winner : Ordering) : Int := if winner = .lt then -1 else 1

theorem side_cases (winner : Ordering) : side winner = 1 ∨ side winner = -1 := by
  cases winner <;> simp [side]

theorem isIntOrOpen_tighter (winner : Ordering) {a b : Bound} (ha : a.IsIntOrOpen)
    (hb : b.IsIntOrOpen) : (tighter winner a b).IsIntOrOpen := by
  rcases tighter_eq_or winner a b with h | h <;> rw [h]
  · exact ha
  · exact hb

/-- **The tighter of two bounds is as tight as both of them together.** -/
theorem tightness_tighter {winner : Ordering} (hwinner : winner ≠ .eq) {a b : Bound}
    (ha : a.IsIntOrOpen) (hb : b.IsIntOrOpen) :
    (tighter winner a b).tightness (side winner) =
      max (a.tightness (side winner)) (b.tightness (side winner)) := by
  rcases ha.value_cases with rfl | ⟨m, hm⟩
  · exact (max_eq_right bot_le).symm
  rcases hb.value_cases with rfl | ⟨n, hn⟩
  · have hleft : tighter winner a .unbounded = a := by
      rw [tighter, hm]
      rfl
    rw [hleft]
    exact (max_eq_left bot_le).symm
  · have hra := a.rim_cases
    have hrb := b.rim_cases
    -- the order of the integers decides, and at the same integer what is left out
    have hpick : (tighter winner a b = a ∧ b.tightness (side winner) ≤ a.tightness (side winner)) ∨
        (tighter winner a b = b ∧ a.tightness (side winner) ≤ b.tightness (side winner)) := by
      rw [Bound.tighter_of_values hm hn, order_int, Bound.tightness_of_int _ hm, Bound.tightness_of_int _ hn,
        WithBot.coe_le_coe, WithBot.coe_le_coe]
      rcases Int.lt_trichotomy m.toInt n.toInt with hlt | heq | hgt
      · rw [Int.compare_eq_lt.2 hlt]
        cases winner with
        | lt => exact .inl ⟨rfl, by simp only [side, if_true]; omega⟩
        | eq => exact absurd rfl hwinner
        | gt => exact .inr ⟨rfl, by simp [side]; omega⟩
      · rw [Std.compare_eq_iff_eq.2 heq, heq]
        rcases hra with ⟨hae, har⟩ | ⟨hae, har⟩
        · exact .inr ⟨by simp [hae], by omega⟩
        · exact .inl ⟨by simp [hae], by omega⟩
      · rw [Int.compare_eq_gt.2 hgt]
        cases winner with
        | lt => exact .inr ⟨rfl, by simp [side]; omega⟩
        | eq => exact absurd rfl hwinner
        | gt => exact .inl ⟨rfl, by simp [side]; omega⟩
    rcases hpick with ⟨h, hle⟩ | ⟨h, hle⟩ <;> rw [h]
    · exact (max_eq_left hle).symm
    · exact (max_eq_right hle).symm

/-- Of three bounds on one side it does not matter which of the last two is looked at first. -/
theorem tighter_right_comm {winner : Ordering} (hwinner : winner ≠ .eq) {a b c : Bound}
    (ha : a.IsIntOrOpen) (hb : b.IsIntOrOpen) (hc : c.IsIntOrOpen) :
    tighter winner (tighter winner a b) c = tighter winner (tighter winner a c) b := by
  have hab := isIntOrOpen_tighter winner ha hb
  have hac := isIntOrOpen_tighter winner ha hc
  refine Bound.tightness_injective (side_cases winner) (isIntOrOpen_tighter winner hab hc)
    (isIntOrOpen_tighter winner hac hb) ?_
  rw [tightness_tighter hwinner hab hc, tightness_tighter hwinner ha hb,
    tightness_tighter hwinner hac hb, tightness_tighter hwinner ha hc]
  exact max_right_comm ..

/-- And of two bounds either may come first. -/
theorem tighter_comm {winner : Ordering} (hwinner : winner ≠ .eq) {a b : Bound}
    (ha : a.IsIntOrOpen) (hb : b.IsIntOrOpen) : tighter winner a b = tighter winner b a := by
  refine Bound.tightness_injective (side_cases winner) (isIntOrOpen_tighter winner ha hb)
    (isIntOrOpen_tighter winner hb ha) ?_
  rw [tightness_tighter hwinner ha hb, tightness_tighter hwinner hb ha]
  exact max_comm ..

/-- **Ranges of integers may be intersected in any order.** -/
theorem intersect_right_comm {r s u : Range} (hr : r.IsInt) (hs : s.IsInt) (hu : u.IsInt) :
    (r.intersect s).intersect u = (r.intersect u).intersect s := by
  unfold intersect
  simp only
  rw [tighter_right_comm (by decide) hr.1 hs.1 hu.1, tighter_right_comm (by decide) hr.2 hs.2 hu.2]

theorem intersect_comm {r s : Range} (hr : r.IsInt) (hs : s.IsInt) :
    r.intersect s = s.intersect r := by
  unfold intersect
  rw [tighter_comm (by decide) hr.1 hs.1, tighter_comm (by decide) hr.2 hs.2]

/-! ### Emptiness -/

/-- The range has bounds on both sides. -/
def HasEnds (r : Range) : Prop := r.lower ≠ .unbounded ∧ r.upper ≠ .unbounded

theorem tighter_ne_unbounded {winner : Ordering} {a b : Bound} (ha : a ≠ .unbounded) :
    tighter winner a b ≠ .unbounded := by
  rcases tighter_eq_or winner a b with h | h
  · rw [h]
    exact ha
  · intro hopen
    rw [hopen] at h
    -- an absent bound is never the tighter one
    rw [← h, tighter] at hopen
    cases a <;> simp_all [Bound.value?]

/-- A bound is missing from an intersection where both ranges miss it. -/
theorem eq_unbounded_of_tighter {winner : Ordering} {a b : Bound}
    (h : tighter winner a b = .unbounded) : a = .unbounded ∧ b = .unbounded := by
  by_cases ha : a = .unbounded
  · subst ha
    exact ⟨rfl, h⟩
  · exact absurd h (tighter_ne_unbounded ha)

/-- A larger integer is not below a lower bound either. -/
theorem above_mono {b : Bound} (hb : b.IsIntOrOpen) {n m : Int64} (hn : Above b n)
    (h : n.toInt ≤ m.toInt) : Above b m := by
  rcases hb.cases with rfl | ⟨k, rfl | rfl⟩
  · trivial
  · exact Int.le_trans hn h
  · exact Int.lt_of_lt_of_le hn h

/-- A smaller integer is not above an upper bound either. -/
theorem below_mono {b : Bound} (hb : b.IsIntOrOpen) {n m : Int64} (hn : Below b n)
    (h : m.toInt ≤ n.toInt) : Below b m := by
  rcases hb.cases with rfl | ⟨k, rfl | rfl⟩
  · trivial
  · exact Int.le_trans h hn
  · exact Int.lt_of_le_of_lt h hn

theorem HasEnds.intersect {r : Range} (h : r.HasEnds) (s : Range) : (r.intersect s).HasEnds :=
  ⟨tighter_ne_unbounded h.1, tighter_ne_unbounded h.2⟩

/-- The least integer that a lower bound admits is admitted, and so are all larger ones. -/
theorem above_of_leastInt? {b : Bound} (h : b.IsIntOrOpen) {l n : Int64}
    (hl : leastInt? b = some l) (hn : l.toInt ≤ n.toInt) : Above b n := by
  rcases h.cases with rfl | ⟨m, rfl | rfl⟩
  · cases hl
  · cases hl
    exact hn
  · have hword : l.toInt = m.toInt + 1 := Signed.word?_eq_some_iff.1 hl
    simp only [Above]
    omega

theorem below_of_largestInt? {b : Bound} (h : b.IsIntOrOpen) {u n : Int64}
    (hu : largestInt? b = some u) (hn : n.toInt ≤ u.toInt) : Below b n := by
  rcases h.cases with rfl | ⟨m, rfl | rfl⟩
  · cases hu
  · cases hu
    exact hn
  · have hword : u.toInt = m.toInt - 1 := Signed.word?_eq_some_iff.1 hu
    simp only [Below]
    omega

theorem isInt_of_ne_unbounded {b : Bound} (h : b.IsIntOrOpen) (hbound : b ≠ .unbounded) :
    b.isInt = true := by
  rcases h.cases with rfl | ⟨m, rfl | rfl⟩
  · exact absurd rfl hbound
  · rfl
  · rfl

theorem closedInts?_eq_some_iff {r : Range} {l u : Int64} :
    r.closedInts? = some (l, u) ↔ leastInt? r.lower = some l ∧ largestInt? r.upper = some u := by
  unfold closedInts?
  cases leastInt? r.lower <;> cases largestInt? r.upper <;> simp

/-- A lower bound above which there is no integer leaves out the largest one. -/
theorem eq_of_leastInt?_eq_none {b : Bound} (h : b.IsIntOrOpen) (hbound : b ≠ .unbounded)
    (hnone : leastInt? b = none) : ∃ m : Int64, b = .exclusive (.int m) ∧
      ∀ n : Int64, n.toInt ≤ m.toInt := by
  rcases h.cases with rfl | ⟨m, rfl | rfl⟩
  · exact absurd rfl hbound
  · cases hnone
  · have hword : Signed.word? (m.toInt + 1) = none := hnone
    refine ⟨m, rfl, fun n => ?_⟩
    have hn := Signed.toInt_fits n
    have hm := Signed.toInt_fits m
    simp only [Signed.word?, ite_eq_right_iff, reduceCtorEq, imp_false] at hword
    simp only [Signed.least, Signed.greatest] at hword hn hm
    omega

/-- An upper bound below which there is no integer leaves out the least one. -/
theorem eq_of_largestInt?_eq_none {b : Bound} (h : b.IsIntOrOpen) (hbound : b ≠ .unbounded)
    (hnone : largestInt? b = none) : ∃ m : Int64, b = .exclusive (.int m) ∧
      ∀ n : Int64, m.toInt ≤ n.toInt := by
  rcases h.cases with rfl | ⟨m, rfl | rfl⟩
  · exact absurd rfl hbound
  · cases hnone
  · have hword : Signed.word? (m.toInt - 1) = none := hnone
    refine ⟨m, rfl, fun n => ?_⟩
    have hn := Signed.toInt_fits n
    have hm := Signed.toInt_fits m
    simp only [Signed.word?, ite_eq_right_iff, reduceCtorEq, imp_false] at hword
    simp only [Signed.least, Signed.greatest] at hword hn hm
    omega

/-- Where one end admits no integer at all, the bounds cross. -/
theorem boundsCross_of_closedInts?_eq_none {r : Range} (h : r.IsInt) (hends : r.HasEnds)
    (hnone : r.closedInts? = none) : r.boundsCross = true := by
  have hside : leastInt? r.lower = none ∨ largestInt? r.upper = none := by
    unfold closedInts? at hnone
    cases hl : leastInt? r.lower with
    | none => exact .inl rfl
    | some l =>
        cases hu : largestInt? r.upper with
        | none => exact .inr rfl
        | some u => simp [hl, hu] at hnone
  unfold boundsCross
  rcases hside with hleast | hlargest
  · obtain ⟨m, hm, hmax⟩ := eq_of_leastInt?_eq_none h.1 hends.1 hleast
    rw [hm]
    rcases h.2.cases with hu | ⟨u, hu | hu⟩
    · exact absurd hu hends.2
    · rw [hu]
      exact Int.isGE_compare.2 (hmax u)
    · rw [hu]
      exact Int.isGE_compare.2 (hmax u)
  · obtain ⟨m, hm, hmin⟩ := eq_of_largestInt?_eq_none h.2 hends.2 hlargest
    rw [hm]
    rcases h.1.cases with hl | ⟨l, hl | hl⟩
    · exact absurd hl hends.1
    · rw [hl]
      exact Int.isGE_compare.2 (hmin l)
    · rw [hl]
      exact Int.isGE_compare.2 (hmin l)

/-- A range that is found empty has bounds on both sides. -/
theorem hasEnds_of_isEmpty {r : Range} (h : r.isEmpty = true) : r.HasEnds := by
  obtain ⟨lower, upper⟩ := r
  constructor
  · rintro rfl
    cases upper <;> cases h
  · rintro rfl
    cases lower <;> simp [isEmpty, Bound.isInt, Bound.value?, boundsCross] at h

/-- **A range of integers is found empty exactly when it has two ends and holds no integer.** -/
theorem isEmpty_iff {r : Range} (h : r.IsInt) :
    r.isEmpty = true ↔ r.HasEnds ∧ ∀ n, ¬ r.contains (.int n) = true := by
  constructor
  · refine fun hempty => ⟨hasEnds_of_isEmpty hempty, fun n hn => ?_⟩
    rw [isEmpty_of_contains h hn] at hempty
    cases hempty
  · rintro ⟨hends, hnone⟩
    unfold isEmpty
    cases hclosed : r.closedInts? with
    | none =>
        rw [boundsCross_of_closedInts?_eq_none h hends hclosed]
        exact ite_self _
    | some p =>
        obtain ⟨l, u⟩ := p
        rw [isInt_of_ne_unbounded h.1 hends.1, isInt_of_ne_unbounded h.2 hends.2]
        simp only [Bool.and_self, if_true, decide_eq_true_eq]
        -- otherwise the least integer would be in the range
        by_contra hle
        obtain ⟨hl, hu⟩ := closedInts?_eq_some_iff.1 hclosed
        exact hnone l ((contains_int_iff h l).2
          ⟨above_of_leastInt? h.1 hl (Int.le_refl _), below_of_largestInt? h.2 hu (by omega)⟩)

end Range

/-! ### Constraints -/

namespace Constraint

/-- The constraint is on integers: a list of them, or a range between them. -/
def IsOnInts : Constraint → Prop
  | .oneOf values => ∀ v ∈ values, ∃ n, v = .int n
  | .within r => r.IsInt

/-- The range of a constraint that is none of values. -/
def range? : Constraint → Option Range
  | .oneOf _ => none
  | .within r => some r

/-- Constraints on integers that are alike: lists of the same integers, or the same range. -/
structure Alike (c d : Constraint) : Prop where
  left : c.IsOnInts
  right : d.IsOnInts
  range : c.range? = d.range?
  meets : ∀ n, c.Meets n ↔ d.Meets n

variable {c d e : Constraint}

theorem alike_self : c.Alike c ↔ c.IsOnInts :=
  ⟨Alike.left, fun h => ⟨h, h, rfl, fun _ => Iff.rfl⟩⟩

theorem Alike.symm (h : c.Alike d) : d.Alike c :=
  ⟨h.right, h.left, h.range.symm, fun n => (h.meets n).symm⟩

theorem Alike.trans (h : c.Alike d) (h' : d.Alike e) : c.Alike e :=
  ⟨h.left, h'.right, h.range.trans h'.range, fun n => (h.meets n).trans (h'.meets n)⟩

/-! ### Intersections -/

theorem IsOnInts.intersect (hc : c.IsOnInts) (hd : d.IsOnInts) : (c.intersect d).IsOnInts := by
  cases c with
  | oneOf a =>
      cases d with
      | oneOf b => exact fun v hv => hc v (List.mem_of_mem_filter hv)
      | within r => exact fun v hv => hc v (List.mem_of_mem_filter hv)
  | within r =>
      cases d with
      | oneOf b => exact fun v hv => hd v (List.mem_of_mem_filter hv)
      | within s => exact Range.IsInt.intersect hc hd

/-- The intersection of two ranges is one, and every other one is a list. -/
theorem range?_intersect (c d : Constraint) :
    (c.intersect d).range? = c.range?.bind fun r => d.range?.map r.intersect := by
  cases c <;> cases d <;> rfl

/-- **An integer meets the intersection of two constraints exactly when it meets both.** -/
theorem meets_intersect_iff (hc : c.IsOnInts) (hd : d.IsOnInts) (n : Int64) :
    (c.intersect d).Meets n ↔ c.Meets n ∧ d.Meets n := by
  refine ⟨fun h => ?_, fun h => h.1.intersect h.2⟩
  cases c with
  | oneOf a =>
      cases d with
      | oneOf b =>
          obtain ⟨ha, hb⟩ := List.mem_filter.1 h
          exact ⟨ha, List.mem_of_elem_eq_true hb⟩
      | within r =>
          obtain ⟨ha, hr⟩ := List.mem_filter.1 h
          exact ⟨ha, hd, hr⟩
  | within r =>
      cases d with
      | oneOf b =>
          obtain ⟨hb, hr⟩ := List.mem_filter.1 h
          exact ⟨⟨hc, hr⟩, hb⟩
      | within s =>
          obtain ⟨hr, hs⟩ := (Range.contains_intersect_iff hc hd n).1 h.2
          exact ⟨⟨hc, hr⟩, hd, hs⟩

theorem isInt_of_range? (hc : c.IsOnInts) {r : Range} (h : c.range? = some r) : r.IsInt := by
  cases c with
  | oneOf values => cases h
  | within s =>
      cases h
      exact hc

/-- Intersections of constraints that are alike are alike. -/
theorem Alike.intersect {c' d' : Constraint} (hc : c.Alike c') (hd : d.Alike d') :
    (c.intersect d).Alike (c'.intersect d') where
  left := hc.left.intersect hd.left
  right := hc.right.intersect hd.right
  range := by rw [range?_intersect, range?_intersect, hc.range, hd.range]
  meets n := by
    rw [meets_intersect_iff hc.left hd.left, meets_intersect_iff hc.right hd.right, hc.meets,
      hd.meets]

/-- **Of two constraints that a third one is intersected with either may come first.** -/
theorem alike_intersect_swap (hc : c.IsOnInts) (hd : d.IsOnInts) (he : e.IsOnInts) :
    ((c.intersect d).intersect e).Alike ((c.intersect e).intersect d) where
  left := (hc.intersect hd).intersect he
  right := (hc.intersect he).intersect hd
  range := by
    simp only [range?_intersect]
    cases hr : c.range? with
    | none => rfl
    | some r =>
        cases hs : d.range? with
        | none => cases e.range? <;> rfl
        | some s =>
            cases hu : e.range? with
            | none => rfl
            | some u =>
                exact congrArg some (Range.intersect_right_comm (isInt_of_range? hc hr)
                  (isInt_of_range? hd hs) (isInt_of_range? he hu))
  meets n := by
    rw [meets_intersect_iff (hc.intersect hd) he, meets_intersect_iff hc hd,
      meets_intersect_iff (hc.intersect he) hd, meets_intersect_iff hc he]
    exact and_right_comm

/-- And of two constraints themselves either may come first. -/
theorem alike_intersect_comm (hc : c.IsOnInts) (hd : d.IsOnInts) :
    (c.intersect d).Alike (d.intersect c) where
  left := hc.intersect hd
  right := hd.intersect hc
  range := by
    simp only [range?_intersect]
    cases hr : c.range? with
    | none => cases d.range? <;> rfl
    | some r =>
        cases hs : d.range? with
        | none => rfl
        | some s => exact congrArg some (Range.intersect_comm (isInt_of_range? hc hr)
            (isInt_of_range? hd hs))
  meets n := by
    rw [meets_intersect_iff hc hd, meets_intersect_iff hd hc]
    exact and_comm

/-! ### Emptiness -/

/-- A constraint on integers is found empty exactly when it is a list, or a range with two ends,
and no integer meets it. -/
theorem isEmpty_iff (hc : c.IsOnInts) :
    c.isEmpty = true ↔ (∀ r ∈ c.range?, r.HasEnds) ∧ ∀ n, ¬ c.Meets n := by
  cases c with
  | oneOf values =>
      refine ⟨fun h => ⟨fun r hr => (by cases hr), fun n hn => ?_⟩, fun h => ?_⟩
      · rw [List.isEmpty_iff.1 h] at hn
        cases hn
      · refine List.isEmpty_iff.2 (List.eq_nil_iff_forall_not_mem.2 fun v hv => ?_)
        obtain ⟨n, rfl⟩ := hc v hv
        exact h.2 n hv
  | within r =>
      refine (Range.isEmpty_iff hc).trans (and_congr ?_ (forall_congr' fun n => not_congr ?_))
      · exact ⟨fun h s hs => Option.some.inj hs ▸ h, fun h => h r rfl⟩
      · exact ⟨fun h => ⟨hc, h⟩, fun h => h.2⟩

theorem Alike.isEmpty_eq (h : c.Alike d) : c.isEmpty = d.isEmpty := by
  rw [Bool.eq_iff_iff, isEmpty_iff h.left, isEmpty_iff h.right, h.range]
  exact and_congr_right fun _ => forall_congr' fun n => not_congr (h.meets n)

/-- **A constraint that is found empty stays empty whatever it is intersected with.** -/
theorem isEmpty_intersect (hc : c.IsOnInts) (hd : d.IsOnInts) (h : c.isEmpty = true) :
    (c.intersect d).isEmpty = true := by
  obtain ⟨hends, hnone⟩ := (isEmpty_iff hc).1 h
  refine (isEmpty_iff (hc.intersect hd)).2 ⟨fun r hr => ?_, fun n hn => ?_⟩
  · rw [range?_intersect] at hr
    obtain ⟨s, hs, hr⟩ := Option.bind_eq_some_iff.1 hr
    obtain ⟨u, -, rfl⟩ := Option.map_eq_some_iff.1 hr
    exact (hends s hs).intersect u
  · exact hnone n ((meets_intersect_iff hc hd n).1 hn).1

end Constraint

end ShardedSql
