/-
**What ranges of integers say of an integer.**

A constraint of a statement is narrowed, found empty, and turned into the least and the largest
integer that it admits.  None of these steps may lose an integer that meets the constraint.

Main definitions:

* `ShardedSql.Range.IsInt` — the bounds of a range are integers, or absent;
* `ShardedSql.Constraint.Meets` — an integer meets a constraint.

Main results:

* `ShardedSql.Range.isEmpty_of_contains` — **a range that holds an integer is not found empty**;
* `ShardedSql.Range.closedInts?_of_contains` — the integers of a range are between its least and its
  largest;
* `ShardedSql.Constraint.Meets.intersect` — **what meets two constraints meets their
  intersection**.
-/

import ShardedSql.Condition
import ShardedSql.Proofs.Outcome

set_option relaxedAutoImplicit false
set_option autoImplicit false

namespace ShardedSql

/-! ### Bounds -/

/-- The bound is an integer, or absent. -/
def Bound.IsIntOrOpen (b : Bound) : Prop := ∀ v ∈ b.value?, ∃ n, v = .int n

namespace Bound

/-- The bounds whose value is an integer. -/
theorem IsIntOrOpen.cases {b : Bound} (h : b.IsIntOrOpen) :
    b = .unbounded ∨ ∃ n : Int64, b = .inclusive (.int n) ∨ b = .exclusive (.int n) := by
  cases b with
  | unbounded => exact .inl rfl
  | inclusive v =>
      obtain ⟨n, rfl⟩ := h v rfl
      exact .inr ⟨n, .inl rfl⟩
  | exclusive v =>
      obtain ⟨n, rfl⟩ := h v rfl
      exact .inr ⟨n, .inr rfl⟩

theorem isIntOrOpen_unbounded : IsIntOrOpen .unbounded := fun v hv => by cases hv

theorem isIntOrOpen_inclusive (n : Int64) : IsIntOrOpen (.inclusive (.int n)) :=
  fun v hv => by cases hv; exact ⟨n, rfl⟩

theorem isIntOrOpen_exclusive (n : Int64) : IsIntOrOpen (.exclusive (.int n)) :=
  fun v hv => by cases hv; exact ⟨n, rfl⟩

end Bound

namespace Range

/-- The bounds of the range are integers, or absent. -/
def IsInt (r : Range) : Prop := r.lower.IsIntOrOpen ∧ r.upper.IsIntOrOpen

theorem isInt_closed (a b : Int64) : (closed (.int a) (.int b)).IsInt :=
  ⟨Bound.isIntOrOpen_inclusive a, Bound.isIntOrOpen_inclusive b⟩

/-- The tighter of two bounds is one of them. -/
theorem tighter_eq_or (winner : Ordering) (a b : Bound) :
    tighter winner a b = a ∨ tighter winner a b = b := by
  unfold tighter
  split
  · exact .inr rfl
  · exact .inl rfl
  · split
    · split
      · exact .inl rfl
      · exact .inr rfl
    · split
      · exact .inl rfl
      · exact .inr rfl

theorem aboveLower_congr {r s : Range} (h : r.lower = s.lower) (v : Value) :
    r.aboveLower v = s.aboveLower v := by
  rw [aboveLower, aboveLower, h]

theorem belowUpper_congr {r s : Range} (h : r.upper = s.upper) (v : Value) :
    r.belowUpper v = s.belowUpper v := by
  rw [belowUpper, belowUpper, h]

/-- What two ranges hold is held by their intersection. -/
theorem contains_intersect {r s : Range} {v : Value} (hr : r.contains v = true)
    (hs : s.contains v = true) : (r.intersect s).contains v = true := by
  rw [contains, Bool.and_eq_true] at hr hs ⊢
  constructor
  · rcases tighter_eq_or .gt r.lower s.lower with h | h
    · exact (aboveLower_congr h v).trans hr.1
    · exact (aboveLower_congr h v).trans hs.1
  · rcases tighter_eq_or .lt r.upper s.upper with h | h
    · exact (belowUpper_congr h v).trans hr.2
    · exact (belowUpper_congr h v).trans hs.2

theorem IsInt.intersect {r s : Range} (hr : r.IsInt) (hs : s.IsInt) : (r.intersect s).IsInt := by
  constructor
  · rcases tighter_eq_or .gt r.lower s.lower with h | h <;> rw [Range.intersect, h]
    · exact hr.1
    · exact hs.1
  · rcases tighter_eq_or .lt r.upper s.upper with h | h <;> rw [Range.intersect, h]
    · exact hr.2
    · exact hs.2

/-! ### Integers -/

theorem order_int (a b : Int64) :
    (Value.int a).order .first (.int b) = compare a.toInt b.toInt := rfl

/-- The integer is not below a lower bound. -/
def Above (b : Bound) (n : Int64) : Prop :=
  match b with
  | .unbounded => True
  | .inclusive (.int l) => l.toInt ≤ n.toInt
  | .exclusive (.int l) => l.toInt < n.toInt
  | _ => False

/-- The integer is not above an upper bound. -/
def Below (b : Bound) (n : Int64) : Prop :=
  match b with
  | .unbounded => True
  | .inclusive (.int u) => n.toInt ≤ u.toInt
  | .exclusive (.int u) => n.toInt < u.toInt
  | _ => False

theorem aboveLower_int_iff {r : Range} (h : r.lower.IsIntOrOpen) (n : Int64) :
    r.aboveLower (.int n) = true ↔ Above r.lower n := by
  unfold aboveLower
  rcases h.cases with hl | ⟨l, hl | hl⟩ <;> rw [hl]
  · exact ⟨fun _ => trivial, fun _ => rfl⟩
  · exact Int.isGE_compare
  · exact Ordering.isGT_iff_eq_gt.trans Int.compare_eq_gt

theorem belowUpper_int_iff {r : Range} (h : r.upper.IsIntOrOpen) (n : Int64) :
    r.belowUpper (.int n) = true ↔ Below r.upper n := by
  unfold belowUpper
  rcases h.cases with hu | ⟨u, hu | hu⟩ <;> rw [hu]
  · exact ⟨fun _ => trivial, fun _ => rfl⟩
  · exact Int.isLE_compare
  · exact Ordering.isLT_iff_eq_lt.trans Int.compare_eq_lt

/-- An integer is in a range of integers when it is neither below nor above it. -/
theorem contains_int_iff {r : Range} (h : r.IsInt) (n : Int64) :
    r.contains (.int n) = true ↔ Above r.lower n ∧ Below r.upper n := by
  rw [contains, Bool.and_eq_true, aboveLower_int_iff h.1, belowUpper_int_iff h.2]

theorem leastInt?_le {b : Bound} (h : b.IsIntOrOpen) {n l : Int64} (hn : Above b n)
    (hl : leastInt? b = some l) : l.toInt ≤ n.toInt := by
  rcases h.cases with hb | ⟨m, hb | hb⟩ <;> rw [hb] at hn hl
  · cases hl
  · cases hl
    exact hn
  · have hword : l.toInt = m.toInt + 1 := Signed.word?_eq_some_iff.1 hl
    have hlt : m.toInt < n.toInt := hn
    omega

theorem le_largestInt? {b : Bound} (h : b.IsIntOrOpen) {n u : Int64} (hn : Below b n)
    (hu : largestInt? b = some u) : n.toInt ≤ u.toInt := by
  rcases h.cases with hb | ⟨m, hb | hb⟩ <;> rw [hb] at hn hu
  · cases hu
  · cases hu
    exact hn
  · have hword : u.toInt = m.toInt - 1 := Signed.word?_eq_some_iff.1 hu
    have hlt : n.toInt < m.toInt := hn
    omega

/-- An integer in a range is between the least and the largest integer of the range. -/
theorem closedInts?_of_contains {r : Range} (h : r.IsInt) {n l u : Int64}
    (hn : r.contains (.int n) = true) (hr : r.closedInts? = some (l, u)) :
    l.toInt ≤ n.toInt ∧ n.toInt ≤ u.toInt := by
  obtain ⟨habove, hbelow⟩ := (contains_int_iff h n).1 hn
  unfold closedInts? at hr
  cases hl : leastInt? r.lower with
  | none => simp [hl] at hr
  | some least =>
      cases hu : largestInt? r.upper with
      | none => simp [hl, hu] at hr
      | some largest =>
          simp only [hl, hu, Option.bind_eq_bind, Option.bind_some, Option.some.injEq,
            Prod.mk.injEq] at hr
          obtain ⟨rfl, rfl⟩ := hr
          exact ⟨leastInt?_le h.1 habove hl, le_largestInt? h.2 hbelow hu⟩

/-- The bounds of a range that holds an integer do not cross. -/
theorem boundsCross_of_contains {r : Range} (h : r.IsInt) {n : Int64}
    (hn : r.contains (.int n) = true) : r.boundsCross = false := by
  obtain ⟨habove, hbelow⟩ := (contains_int_iff h n).1 hn
  unfold boundsCross
  rcases h.1.cases with hl | ⟨l, hl | hl⟩ <;> rw [hl] at habove ⊢
  · rcases h.2.cases with hu | ⟨u, hu | hu⟩ <;> rw [hu] at hbelow ⊢
    · have hle : l.toInt ≤ u.toInt := Int.le_trans habove hbelow
      simp only [order_int, Bool.eq_false_iff, ne_eq, Ordering.isGT_iff_eq_gt, Int.compare_eq_gt]
      omega
    · have hlt : l.toInt < u.toInt := Int.lt_of_le_of_lt habove hbelow
      simp only [order_int, Bool.eq_false_iff, ne_eq, Int.isGE_compare]
      omega
  · rcases h.2.cases with hu | ⟨u, hu | hu⟩ <;> rw [hu] at hbelow ⊢
    · have hlt : l.toInt < u.toInt := Int.lt_of_lt_of_le habove hbelow
      simp only [order_int, Bool.eq_false_iff, ne_eq, Int.isGE_compare]
      omega
    · have hlt : l.toInt < u.toInt := Int.lt_trans habove hbelow
      simp only [order_int, Bool.eq_false_iff, ne_eq, Int.isGE_compare]
      omega

/-- **A range that holds an integer is not found empty.** -/
theorem isEmpty_of_contains {r : Range} (h : r.IsInt) {n : Int64}
    (hn : r.contains (.int n) = true) : r.isEmpty = false := by
  unfold isEmpty
  split
  · cases hr : r.closedInts? with
    | none => exact boundsCross_of_contains h hn
    | some p =>
        have hle := closedInts?_of_contains h hn hr
        simp only [decide_eq_false_iff_not]
        omega
  · exact boundsCross_of_contains h hn

end Range

/-! ### Constraints -/

namespace Constraint

/-- An integer meets a constraint.  Of ranges only those of integers count. -/
def Meets (n : Int64) : Constraint → Prop
  | .oneOf values => .int n ∈ values
  | .within r => r.IsInt ∧ r.contains (.int n) = true

variable {n : Int64} {c d : Constraint}

theorem Meets.isEmpty (h : c.Meets n) : c.isEmpty = false := by
  cases c with
  | oneOf values =>
      cases values with
      | nil => cases h
      | cons v rest => rfl
  | within r => exact Range.isEmpty_of_contains h.1 h.2

/-- **What meets two constraints meets their intersection.** -/
theorem Meets.intersect (hc : c.Meets n) (hd : d.Meets n) : (c.intersect d).Meets n := by
  cases c with
  | oneOf a =>
      cases d with
      | oneOf b => exact List.mem_filter.2 ⟨hc, List.elem_eq_true_of_mem hd⟩
      | within r => exact List.mem_filter.2 ⟨hc, hd.2⟩
  | within r =>
      cases d with
      | oneOf b => exact List.mem_filter.2 ⟨hd, hc.2⟩
      | within s => exact ⟨hc.1.intersect hd.1, Range.contains_intersect hc.2 hd.2⟩

end Constraint

end ShardedSql
