/-
**What is found empty holds nothing.**

A range is found empty when its bounds cross.  A value between them would be above the lower bound,
below the upper one, and the upper bound below the lower one again, which is a circle.  There is no
such circle in a transitive order.  The order of values is transitive but for integers that are
rounded together, and these are left out here.

Between two integers only integers are looked for, so the open range between an integer and the next
one is found empty although numbers in floating point are in it.

Main definitions:

* `ShardedSql.Range.IsGap` — the open range between an integer and the next one;
* `ShardedSql.Range.RoundsTogether` — of a value and the bounds of a range two are integers that are
  rounded to the third;
* `ShardedSql.Constraint.Admits` — a value meets a constraint.

Main results:

* `ShardedSql.Value.order_eq_of_circle` — values in a circle are equal in the order;
* `ShardedSql.Range.roundsTogether_of_boundsCross`, `ShardedSql.Range.overlooks_of_isInt` — what is
  between bounds that cross, and what is in a range of integers that holds no integer;
* `ShardedSql.Condition.empty_verdict_spec` — **what is found empty holds nothing**, a number in a
  gap apart, and a condition without any row is one that no value meets.
-/

import ShardedSql.Proofs.Condition.Permuted
import ShardedSql.Proofs.Range.Intersection
import ShardedSql.Proofs.Value.Order

set_option relaxedAutoImplicit false
set_option autoImplicit false

namespace ShardedSql

/-! ### Circles -/

namespace Value

variable {nulls : NullPlacement} {a b c : Value}

theorem order_eq_of_isLE (hab : (a.order nulls b).isLE) (hba : (b.order nulls a).isLE) :
    a.order nulls b = .eq := by
  rw [order_swap] at hba
  revert hab hba
  cases a.order nulls b <;> decide

theorem isLE_trans (habc : ¬ RoundedTogether a b c) (hab : (a.order nulls b).isLE)
    (hbc : (b.order nulls c).isLE) : (a.order nulls c).isLE := by
  by_contra hac
  exact habc (roundedTogether_of_not_isLE hab hbc hac)

/-- **Values in a circle are equal in the order**, if none of them are rounded together. -/
theorem order_eq_of_circle (habc : ¬ RoundedTogether a b c) (hbca : ¬ RoundedTogether b c a)
    (hcab : ¬ RoundedTogether c a b) (hab : (a.order nulls b).isLE) (hbc : (b.order nulls c).isLE)
    (hca : (c.order nulls a).isLE) :
    a.order nulls b = .eq ∧ b.order nulls c = .eq ∧ c.order nulls a = .eq :=
  ⟨order_eq_of_isLE hab (isLE_trans hbca hbc hca), order_eq_of_isLE hbc (isLE_trans hcab hca hab),
    order_eq_of_isLE hca (isLE_trans habc hab hbc)⟩

end Value

/-! ### Bounds -/

namespace Bound

variable {b : Bound}

/-- What a lower bound admits is not below its value, and it is above it if that is left out. -/
theorem order_of_admits_gt {v w : Value} (hb : b.value? = some w) (h : b.admits .gt v = true) :
    (w.order .first v).isLE ∧ (b.isExclusive = true → w.order .first v = .lt) := by
  have hne : v.order .first w ≠ .lt := order_ne_of_admits (by decide) hb h
  rw [Value.order_swap .first v w]
  constructor
  · revert hne
    cases v.order .first w <;> decide
  · intro hexclusive
    rw [order_eq_of_admits hb hexclusive h]
    rfl

/-- What an upper bound admits is not above its value, and it is below it if that is left out. -/
theorem order_of_admits_lt {v w : Value} (hb : b.value? = some w) (h : b.admits .lt v = true) :
    (v.order .first w).isLE ∧ (b.isExclusive = true → v.order .first w = .lt) :=
  ⟨Ordering.isLE_iff_ne_gt.2 (order_ne_of_admits (by decide) hb h),
    fun hexclusive => order_eq_of_admits hb hexclusive h⟩

theorem exists_int_of_isInt (h : b.isInt = true) : ∃ n, b.value? = some (.int n) := by
  unfold isInt at h
  split at h
  · rename_i n hn
    exact ⟨n, hn⟩
  · cases h

theorem isIntOrOpen_of_value? {n : Int64} (h : b.value? = some (.int n)) : b.IsIntOrOpen :=
  fun _ hv => ⟨n, Option.some.inj (hv.symm.trans h)⟩

theorem ne_unbounded_of_value? {w : Value} (h : b.value? = some w) : b ≠ .unbounded := by
  rintro rfl
  cases h

end Bound

namespace Range

variable {r : Range} {v l u : Value} {m k : Int64}

/-- The integers above a bound at an integer. -/
theorem above_iff_of_value? {b : Bound} (h : b.value? = some (.int m)) (n : Int64) :
    Above b n ↔ m.toInt + b.rim ≤ n.toInt := by
  cases b with
  | unbounded => cases h
  | inclusive => cases h; simp [Above, Bound.rim, Bound.isExclusive]
  | exclusive => cases h; simp only [Above, Bound.rim, Bound.isExclusive, if_true]; omega

theorem below_iff_of_value? {b : Bound} (h : b.value? = some (.int k)) (n : Int64) :
    Below b n ↔ n.toInt ≤ k.toInt - b.rim := by
  cases b with
  | unbounded => cases h
  | inclusive => cases h; simp [Below, Bound.rim, Bound.isExclusive]
  | exclusive => cases h; simp only [Below, Bound.rim, Bound.isExclusive, if_true]; omega

/-! ### What is overlooked -/

/-- The open range between an integer and the next one. -/
def IsGap (r : Range) : Prop :=
  ∃ m n : Int64, n.toInt = m.toInt + 1 ∧ r = ⟨.exclusive (.int m), .exclusive (.int n)⟩

/-- Of a value and the bounds of a range two are integers, in falling order where they are to rise,
and the third is the number in floating point that both are rounded to. -/
def RoundsTogether (r : Range) (v : Value) : Prop :=
  ∃ l ∈ r.lower.value?, ∃ u ∈ r.upper.value?, Value.RoundedTogether l v u ∨
    Value.RoundedTogether v u l ∨ Value.RoundedTogether u l v

/-- What may be in a range that is found empty. -/
def Overlooks (r : Range) (v : Value) : Prop :=
  (r.IsGap ∧ v.isFloat = true) ∨ r.RoundsTogether v

/-- The circle of a value between bounds that are in falling order. -/
theorem order_eq_of_not_roundsTogether (hl : r.lower.value? = some l) (hu : r.upper.value? = some u)
    (h : ¬ r.RoundsTogether v) (hlv : (l.order .first v).isLE) (hvu : (v.order .first u).isLE)
    (hul : (u.order .first l).isLE) :
    l.order .first v = .eq ∧ v.order .first u = .eq ∧ u.order .first l = .eq :=
  Value.order_eq_of_circle (fun ht => h ⟨l, hl, u, hu, .inl ht⟩)
    (fun ht => h ⟨l, hl, u, hu, .inr (.inl ht)⟩) (fun ht => h ⟨l, hl, u, hu, .inr (.inr ht)⟩)
    hlv hvu hul

/-- Bounds cross when they are in falling order, or at the same value and one of them leaves it
out. -/
theorem boundsCross_of_values (hl : r.lower.value? = some l) (hu : r.upper.value? = some u) :
    r.boundsCross = if r.lower.isExclusive || r.upper.isExclusive then (l.order .first u).isGE
      else (l.order .first u).isGT := by
  obtain ⟨lower, upper⟩ := r
  cases lower <;> cases upper <;> cases hl <;> cases hu <;> rfl

theorem exists_values_of_boundsCross (h : r.boundsCross = true) :
    ∃ l u, r.lower.value? = some l ∧ r.upper.value? = some u := by
  obtain ⟨lower, upper⟩ := r
  cases lower <;> cases upper <;> first | exact ⟨_, _, rfl, rfl⟩ | cases h

theorem order_of_boundsCross (h : r.boundsCross = true) (hl : r.lower.value? = some l)
    (hu : r.upper.value? = some u) : (u.order .first l).isLE ∧
      (u.order .first l = .lt ∨ r.lower.isExclusive = true ∨ r.upper.isExclusive = true) := by
  rw [boundsCross_of_values hl hu, Value.order_swap .first u l] at h
  revert h
  cases u.order .first l <;> cases r.lower.isExclusive <;> cases r.upper.isExclusive <;> decide

/-- **Between bounds that cross there is only what is rounded together.** -/
theorem roundsTogether_of_boundsCross (h : r.boundsCross = true) (hv : r.contains v = true) :
    r.RoundsTogether v := by
  by_contra hno
  obtain ⟨l, u, hl, hu⟩ := exists_values_of_boundsCross h
  obtain ⟨hul, hstrict⟩ := order_of_boundsCross h hl hu
  rw [contains_eq_admits, Bool.and_eq_true] at hv
  obtain ⟨hlv, hlv'⟩ := Bound.order_of_admits_gt hl hv.1
  obtain ⟨hvu, hvu'⟩ := Bound.order_of_admits_lt hu hv.2
  obtain ⟨hl_eq, hu_eq, hcross⟩ := order_eq_of_not_roundsTogether hl hu hno hlv hvu hul
  -- one of the three steps of the circle is strict
  rcases hstrict with hstrict | hstrict | hstrict
  · rw [hcross] at hstrict
    cases hstrict
  · rw [hlv' hstrict] at hl_eq
    cases hl_eq
  · rw [hvu' hstrict] at hu_eq
    cases hu_eq

/-- There is an integer in a range of integers whose bounds leave room for one. -/
theorem exists_contains_int (hl : r.lower.value? = some (.int m))
    (hu : r.upper.value? = some (.int k))
    (hroom : m.toInt + r.lower.rim ≤ k.toInt - r.upper.rim) :
    ∃ n : Int64, r.contains (.int n) = true := by
  have hm := Signed.toInt_fits m
  have hk := Signed.toInt_fits k
  have hlower := r.lower.rim_cases
  have hupper := r.upper.rim_cases
  have hword : Signed.word? (m.toInt + r.lower.rim) = some (.ofInt (m.toInt + r.lower.rim)) :=
    if_pos (by omega)
  have hn := Signed.word?_eq_some_iff.1 hword
  have hint : r.IsInt := ⟨Bound.isIntOrOpen_of_value? hl, Bound.isIntOrOpen_of_value? hu⟩
  refine ⟨.ofInt (m.toInt + r.lower.rim), (contains_int_iff hint _).2 ⟨?_, ?_⟩⟩
  · rw [above_iff_of_value? hl, hn]
  · rwa [below_iff_of_value? hu, hn]

/-- **In a range of integers that holds no integer there is only a number in a gap**, and what is
rounded together. -/
theorem overlooks_of_isInt (hl : r.lower.value? = some (.int m))
    (hu : r.upper.value? = some (.int k)) (hnone : ∀ n, ¬ r.contains (.int n) = true)
    (hv : r.contains v = true) : r.Overlooks v := by
  by_contra hno
  have hnot : ¬ r.RoundsTogether v := fun h => hno (.inr h)
  have hadmits := hv
  rw [contains_eq_admits, Bool.and_eq_true] at hadmits
  obtain ⟨hlv, hlv'⟩ := Bound.order_of_admits_gt hl hadmits.1
  obtain ⟨hvu, hvu'⟩ := Bound.order_of_admits_lt hu hadmits.2
  have hmk : m.toInt ≤ k.toInt := (Value.isLE_order_int m k).1
    (Value.isLE_trans (fun h => hnot ⟨_, hl, _, hu, .inl h⟩) hlv hvu)
  have hroom : k.toInt - r.upper.rim < m.toInt + r.lower.rim := by
    by_contra hroom
    obtain ⟨n, hn⟩ := exists_contains_int hl hu (by omega)
    exact hnone n hn
  by_cases hsame : k.toInt = m.toInt
  · -- at the same integer one bound leaves it out, and nothing is between
    have hkl : ((Value.int k).order .first (.int m)).isLE := (Value.isLE_order_int k m).2 (by omega)
    obtain ⟨hl_eq, hu_eq, -⟩ := order_eq_of_not_roundsTogether hl hu hnot hlv hvu hkl
    rcases r.lower.rim_cases with ⟨-, hlower⟩ | ⟨hexclusive, -⟩
    · rcases r.upper.rim_cases with ⟨-, hupper⟩ | ⟨hexclusive, -⟩
      · omega
      · rw [hvu' hexclusive] at hu_eq
        cases hu_eq
    · rw [hlv' hexclusive] at hl_eq
      cases hl_eq
  · -- at different integers both bounds leave theirs out, and these follow one another
    rcases r.lower.rim_cases with ⟨-, hlower⟩ | ⟨hlower, hlower'⟩ <;>
      rcases r.upper.rim_cases with ⟨-, hupper⟩ | ⟨hupper, hupper'⟩
    · omega
    · omega
    · omega
    · have hgap : r.IsGap := by
        refine ⟨m, k, by omega, ?_⟩
        have hlower : r.lower = .exclusive (.int m) := Bound.eq_of_value?_eq hl hlower
        have hupper : r.upper = .exclusive (.int k) := Bound.eq_of_value?_eq hu hupper
        rw [← hlower, ← hupper]
      have hnumeric := Value.isNumeric_between hlv hvu
      cases v with
      | int n => exact hnone n hv
      | float x => exact hno (.inl ⟨hgap, rfl⟩)
      | _ => cases hnumeric

/-- **A range that is found empty holds nothing but what it overlooks.** -/
theorem overlooks_of_isEmpty (hempty : r.isEmpty = true) (hv : r.contains v = true) :
    r.Overlooks v := by
  by_cases hints : r.lower.isInt = true ∧ r.upper.isInt = true
  · obtain ⟨m, hm⟩ := Bound.exists_int_of_isInt hints.1
    obtain ⟨k, hk⟩ := Bound.exists_int_of_isInt hints.2
    have hint : r.IsInt := ⟨Bound.isIntOrOpen_of_value? hm, Bound.isIntOrOpen_of_value? hk⟩
    exact overlooks_of_isInt hm hk ((isEmpty_iff hint).1 hempty).2 hv
  · rw [isEmpty, if_neg (by rwa [Bool.and_eq_true])] at hempty
    exact .inr (roundsTogether_of_boundsCross hempty hv)

/-- A range between two integers is found empty exactly when no integer is in it. -/
theorem isEmpty_iff_of_isInt (hl : r.lower.isInt = true) (hu : r.upper.isInt = true) :
    r.isEmpty = true ↔ ∀ n : Int64, r.contains (.int n) = false := by
  obtain ⟨m, hm⟩ := Bound.exists_int_of_isInt hl
  obtain ⟨k, hk⟩ := Bound.exists_int_of_isInt hu
  rw [isEmpty_iff ⟨Bound.isIntOrOpen_of_value? hm, Bound.isIntOrOpen_of_value? hk⟩]
  simp only [Bool.not_eq_true]
  exact and_iff_right ⟨Bound.ne_unbounded_of_value? hm, Bound.ne_unbounded_of_value? hk⟩

end Range

/-! ### Constraints -/

namespace Constraint

variable {c d : Constraint} {v : Value}

/-- A value meets a constraint. -/
def Admits (v : Value) : Constraint → Prop
  | .oneOf values => v ∈ values
  | .within r => r.contains v = true

instance (v : Value) : (c : Constraint) → Decidable (c.Admits v)
  | .oneOf values => inferInstanceAs (Decidable (v ∈ values))
  | .within r => inferInstanceAs (Decidable (r.contains v = true))

/-- **What meets two constraints meets their intersection.** -/
theorem Admits.intersect (hc : c.Admits v) (hd : d.Admits v) : (c.intersect d).Admits v := by
  cases c with
  | oneOf a =>
      cases d with
      | oneOf b => exact List.mem_filter.2 ⟨hc, List.elem_eq_true_of_mem hd⟩
      | within r => exact List.mem_filter.2 ⟨hc, hd⟩
  | within r =>
      cases d with
      | oneOf b => exact List.mem_filter.2 ⟨hd, hc⟩
      | within s => exact Range.contains_intersect hc hd

/-- A constraint that is found empty is met by no value, but for what its range overlooks. -/
theorem Admits.overlooks (hv : c.Admits v) (hempty : c.isEmpty = true) :
    ∃ r, c = .within r ∧ r.Overlooks v := by
  cases c with
  | oneOf values =>
      rw [List.isEmpty_iff.1 hempty] at hv
      cases hv
  | within r => exact ⟨r, rfl, Range.overlooks_of_isEmpty hempty hv⟩

end Constraint

/-! ### Conditions -/

namespace Condition

/-- A value meets what is known of a column and what is added, and so what it is narrowed to. -/
theorem admits_narrowed {known : Option Constraint} {c : Constraint} {v : Value}
    (hknown : ∀ d ∈ known, d.Admits v) (hc : c.Admits v) : (narrowed known c).Admits v := by
  cases known with
  | none => exact hc
  | some d => exact (hknown d rfl).intersect hc

/-- **What is found empty holds nothing**, but for numbers in the gap between two integers, and for
what is rounded together.  A range between two integers is found empty exactly when no integer is in
it.  And a condition that becomes one without any row, as something is added about a column, is met
by no value in that column. -/
theorem empty_verdict_spec :
    (∀ (r : Range) (v : Value), ¬ (r.IsGap ∧ v.isFloat = true) → ¬ r.RoundsTogether v →
      r.isEmpty = true → r.contains v = false) ∧
    (∀ r : Range, r.lower.isInt = true → r.upper.isInt = true →
      (r.isEmpty = true ↔ ∀ n : Int64, r.contains (.int n) = false)) ∧
    (∀ (g : Gathered) (table column : String) (c : Constraint) (markers : List Nat) (v : Value),
      g.alwaysFalse = false → (g.add table column c markers).alwaysFalse = true →
      (∀ d ∈ g.known table column, d.Admits v) → c.Admits v →
        ∃ r, narrowed (g.known table column) c = .within r ∧
          (r.IsGap ∧ v.isFloat = true ∨ r.RoundsTogether v)) := by
  refine ⟨fun r v hgap hrounds hempty => ?_, fun r hl hu => Range.isEmpty_iff_of_isInt hl hu,
    fun g table column c markers v hbefore hafter hknown hc => ?_⟩
  · refine Bool.eq_false_iff.2 fun hv => ?_
    exact (Range.overlooks_of_isEmpty hempty hv).elim hgap hrounds
  · rw [Gathered.alwaysFalse_add, hbefore, Bool.false_or] at hafter
    exact (admits_narrowed hknown hc).overlooks hafter

/-! ### Between one and two -/

/-- The integers above one and below two, which there are not. -/
def betweenOneAndTwo : Range := ⟨.exclusive (.int 1), .exclusive (.int 2)⟩

/-- From a number on, below the integer behind it, which is rounded to that number. -/
def belowRounded : Range :=
  ⟨.inclusive (.float ⟨0x4340000000000000⟩), .exclusive (.int 9007199254740993)⟩

/-- A range from texts down to integers holds no number, nothing is above the largest integer, and
a number between one and two is lost when integers are looked for there. -/
theorem empty_verdict_spec_halves :
    (Range.mk (.inclusive (.text "b")) (.exclusive (.int 2))).contains
        (.float ⟨0x3FF8000000000000⟩) = false ∧
      (∀ n : Int64, (Range.mk (.exclusive (.int 9223372036854775807))
        (.inclusive (.int 9223372036854775807))).contains (.int n) = false) ∧
      ∃ r, narrowed ((({} : Gathered).add "t_order" "price"
          (.within ⟨.exclusive (.int 1), .unbounded⟩) []).known "t_order" "price")
          (.within ⟨.unbounded, .exclusive (.int 2)⟩) = .within r ∧
        (r.IsGap ∧ (Value.float ⟨0x3FF8000000000000⟩).isFloat = true ∨
          r.RoundsTogether (.float ⟨0x3FF8000000000000⟩)) := by
  refine ⟨empty_verdict_spec.1 _ _ ?_ ?_ (by decide +kernel),
    (empty_verdict_spec.2.1 _ rfl rfl).1 (by decide +kernel),
    empty_verdict_spec.2.2 _ "t_order" "price" _ [] _ (by decide +kernel) (by decide +kernel) ?_
      (by decide +kernel)⟩
  · rintro ⟨⟨m, n, -, hgap⟩, -⟩
    cases hgap
  · rintro ⟨l, hl, u, hu, h⟩
    cases hl
    cases hu
    rcases h with ⟨_, _, h, -⟩ | ⟨_, _, h, -⟩ | ⟨_, _, -, h, -⟩ <;> cases h
  · intro d hd
    cases hd
    decide +kernel

/-- **A range that is found empty may hold a number**, when that is between an integer and the next
one; and it may hold an integer, when that is rounded to a bound and the other bound is too. -/
theorem empty_range_holds :
    (betweenOneAndTwo.isEmpty = true ∧
      betweenOneAndTwo.contains (.float ⟨0x3FF8000000000000⟩) = true) ∧
    (belowRounded.isEmpty = true ∧ belowRounded.contains (.int 9007199254740992) = true) := by
  decide +kernel

end Condition

end ShardedSql
