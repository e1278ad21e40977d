/-
**Intersecting ranges is exact where integers do not meet floating point.**

Either end of an intersection is the tighter of two bounds, and comparing the values that they name
tells which one that is.  A value that the tighter bound admits is then to be on the right side of
the other one as well.  That is transitivity, which holds as long as no integer is compared with a
number in floating point.

Main definitions:

* `ShardedSql.Bound.admits` — a value is on one side of a bound;
* `ShardedSql.Value.NoneMixed` — among some values there is no integer next to floating point;
* `ShardedSql.Intersection` — ranges that are intersected in some order and grouping.

Main results:

* `ShardedSql.Bound.admits_tighter` — **the tighter bound admits what both bounds admit**;
* `ShardedSql.Range.contains_intersect_eq`, `ShardedSql.Range.contains_intersect_iff` — an
  intersection holds what both ranges hold, as all ranges of integers do;
* `ShardedSql.Intersection.contains_range` — **however ranges are intersected, what is held is what
  all of them hold**.
-/

import ShardedSql.Proofs.Range
import ShardedSql.Proofs.SortKey
import ShardedSql.Proofs.Value.Order

set_option relaxedAutoImplicit false
set_option autoImplicit false

namespace ShardedSql

/-- Among some values there is no integer next to a number in floating point. -/
def Value.NoneMixed (vs : List Value) : Prop := ∀ a ∈ vs, ∀ b ∈ vs, a.Unmixed b

instance (vs : List Value) : Decidable (Value.NoneMixed vs) :=
  inferInstanceAs (Decidable (∀ a ∈ vs, ∀ b ∈ vs, a.Unmixed b))

theorem Value.NoneMixed.subset {vs ws : List Value} (h : Value.NoneMixed vs)
    (hsub : ∀ w ∈ ws, w ∈ vs) : Value.NoneMixed ws :=
  fun a ha b hb => h a (hsub a ha) b (hsub b hb)

/-- Integers alone are not mixed. -/
theorem Value.noneMixed_of_ints {vs : List Value} (h : ∀ v ∈ vs, ∃ n, v = .int n) :
    Value.NoneMixed vs := by
  intro a ha b hb
  obtain ⟨m, rfl⟩ := h a ha
  obtain ⟨n, rfl⟩ := h b hb
  exact ⟨fun h => (by cases h.2), fun h => by cases h.1⟩

/-! ### Bounds -/

namespace Bound

variable {side : Ordering} {a b : Bound} {v w : Value}

/-- A value is on the side of a bound that the range is on: above it, which is `.gt`, when it is a
lower bound, and below it, which is `.lt`, when it is an upper one. -/
def admits (side : Ordering) (b : Bound) (v : Value) : Bool :=
  match b with
  | .unbounded => true
  | .inclusive w => v.order .first w ≠ side.swap
  | .exclusive w => v.order .first w = side

theorem eq_unbounded_of_value? (h : b.value? = none) : b = .unbounded := by
  cases b <;> first | rfl | cases h

/-- What a bound admits is not on its other side. -/
theorem order_ne_of_admits (hside : side ≠ .eq) (hb : b.value? = some w)
    (h : b.admits side v = true) : v.order .first w ≠ side.swap := by
  cases b with
  | unbounded => cases hb
  | inclusive => cases hb; exact of_decide_eq_true h
  | exclusive =>
      cases hb
      rw [of_decide_eq_true h]
      cases side <;> first | exact absurd rfl hside | decide

/-- What is well on the side of a bound is admitted. -/
theorem admits_of_order_eq (hside : side ≠ .eq) (hb : b.value? = some w)
    (h : v.order .first w = side) : b.admits side v = true := by
  cases b with
  | unbounded => rfl
  | inclusive =>
      cases hb
      refine decide_eq_true ?_
      rw [h]
      cases side <;> first | exact absurd rfl hside | decide
  | exclusive => cases hb; exact decide_eq_true h

/-- A bound that leaves its value out admits what is well on its side. -/
theorem order_eq_of_admits (hb : b.value? = some w) (hexclusive : b.isExclusive = true)
    (h : b.admits side v = true) : v.order .first w = side := by
  cases b with
  | unbounded => cases hb
  | inclusive => cases hexclusive
  | exclusive => cases hb; exact of_decide_eq_true h

/-- A bound that does not leave its value out admits what any bound at this value admits. -/
theorem admits_of_not_isExclusive (hside : side ≠ .eq) (ha : a.value? = some w)
    (hb : b.value? = some w) (hinclusive : b.isExclusive = false) (h : a.admits side v = true) :
    b.admits side v = true := by
  cases b with
  | unbounded => rfl
  | inclusive => cases hb; exact decide_eq_true (order_ne_of_admits hside ha h)
  | exclusive => cases hinclusive

/-- **What a bound admits, a bound that it is beyond admits too.** -/
theorem admits_of_beyond {wa wb : Value} (hside : side ≠ .eq) (ha : a.value? = some wa)
    (hb : b.value? = some wb) (hmixed : Value.NoneMixed [v, wa, wb])
    (hbeyond : wa.order .first wb = side) (h : a.admits side v = true) :
    b.admits side v = true := by
  have hva := order_ne_of_admits hside ha h
  have hunmixed {x y : Value} (hx : x ∈ [v, wa, wb]) (hy : y ∈ [v, wa, wb]) :
      x.order .first y = x.kindOrder y := Value.order_eq_kindOrder (hmixed x hx y hy)
  refine admits_of_order_eq hside hb ?_
  rw [hunmixed (by simp) (by simp)] at hva hbeyond ⊢
  cases side with
  | eq => exact absurd rfl hside
  | gt => exact Std.TransCmp.gt_of_isGE_of_gt (Ordering.isGE_iff_ne_lt.2 hva) hbeyond
  | lt => exact Std.TransCmp.lt_of_isLE_of_lt (Ordering.isLE_iff_ne_gt.2 hva) hbeyond

/-- Of two bounds that name values the order of these decides which is the tighter one. -/
theorem tighter_of_values {wa wb : Value} (ha : a.value? = some wa) (hb : b.value? = some wb) :
    Range.tighter side a b =
      if wa.order .first wb = .eq then if a.isExclusive then a else b
      else if wa.order .first wb = side then a else b := by
  rw [Range.tighter, ha, hb]
  simp only
  cases wa.order .first wb <;> rfl

/-- The tighter bound of two is the first, and the other one admits all that it does, or it is the
second, and the first one admits all that this does. -/
theorem tighter_cases (hside : side ≠ .eq)
    (hmixed : Value.NoneMixed (v :: (a.value?.toList ++ b.value?.toList))) :
    (Range.tighter side a b = a ∧ (a.admits side v = true → b.admits side v = true)) ∨
      (Range.tighter side a b = b ∧ (b.admits side v = true → a.admits side v = true)) := by
  cases ha : a.value? with
  | none =>
      cases eq_unbounded_of_value? ha
      exact .inr ⟨rfl, fun _ => rfl⟩
  | some wa =>
      cases hb : b.value? with
      | none =>
          cases eq_unbounded_of_value? hb
          refine .inl ⟨?_, fun _ => rfl⟩
          rw [Range.tighter, ha]
          rfl
      | some wb =>
          rw [ha, hb] at hmixed
          have hab : wa.order .first wb = wa.kindOrder wb :=
            Value.order_eq_kindOrder (hmixed wa (by simp) wb (by simp))
          rw [tighter_of_values ha hb]
          split
          · -- at the same value the bound that leaves it out is the tighter one
            rename_i heq
            cases Value.eq_of_kindOrder_eq (hab ▸ heq)
            cases hexclusive : a.isExclusive with
            | true =>
                exact .inl ⟨rfl, fun h =>
                  admits_of_order_eq hside hb (order_eq_of_admits ha hexclusive h)⟩
            | false => exact .inr ⟨rfl, admits_of_not_isExclusive hside hb ha hexclusive⟩
          · rename_i hne
            split
            · rename_i hbeyond
              exact .inl ⟨rfl, admits_of_beyond hside ha hb hmixed hbeyond⟩
            · rename_i hback
              have hbeyond : wb.order .first wa = side := by
                rw [Value.order_swap .first wa wb]
                revert hne hback hside
                cases wa.order .first wb <;> cases side <;> decide
              exact .inr ⟨rfl, admits_of_beyond hside hb ha (hmixed.subset (by simp)) hbeyond⟩

/-- **The tighter bound admits what both bounds admit.** -/
theorem admits_tighter (hside : side ≠ .eq)
    (hmixed : Value.NoneMixed (v :: (a.value?.toList ++ b.value?.toList))) :
    (Range.tighter side a b).admits side v = (a.admits side v && b.admits side v) := by
  rcases tighter_cases hside hmixed with ⟨htighter, himplies⟩ | ⟨htighter, himplies⟩ <;>
    rw [htighter, Bool.eq_iff_iff, Bool.and_eq_true]
  · exact ⟨fun h => ⟨h, himplies h⟩, And.left⟩
  · exact ⟨fun h => ⟨himplies h, h⟩, And.right⟩

end Bound

/-! ### Ranges -/

namespace Range

variable {r s : Range} {v w : Value}

/-- The values that the bounds of a range name. -/
def named (r : Range) : List Value := r.lower.value?.toList ++ r.upper.value?.toList

/-- A value is in a range when both bounds admit it. -/
theorem contains_eq_admits (r : Range) (v : Value) :
    r.contains v = (r.lower.admits .gt v && r.upper.admits .lt v) := by
  obtain ⟨lower, upper⟩ := r
  have habove : aboveLower ⟨lower, upper⟩ v = lower.admits .gt v := by
    cases lower with
    | unbounded => rfl
    | inclusive l => simp only [aboveLower, Bound.admits]; cases v.order .first l <;> rfl
    | exclusive l => simp only [aboveLower, Bound.admits]; cases v.order .first l <;> rfl
  have hbelow : belowUpper ⟨lower, upper⟩ v = upper.admits .lt v := by
    cases upper with
    | unbounded => rfl
    | inclusive u => simp only [belowUpper, Bound.admits]; cases v.order .first u <;> rfl
    | exclusive u => simp only [belowUpper, Bound.admits]; cases v.order .first u <;> rfl
  rw [contains, habove, hbelow]

/-- **An intersection holds what both ranges hold.** -/
theorem contains_intersect_eq (hmixed : Value.NoneMixed (v :: (r.named ++ s.named))) :
    (r.intersect s).contains v = (r.contains v && s.contains v) := by
  have hlower : (tighter .gt r.lower s.lower).admits .gt v =
      (r.lower.admits .gt v && s.lower.admits .gt v) :=
    Bound.admits_tighter (by decide) (hmixed.subset (by simp only [named]; grind))
  have hupper : (tighter .lt r.upper s.upper).admits .lt v =
      (r.upper.admits .lt v && s.upper.admits .lt v) :=
    Bound.admits_tighter (by decide) (hmixed.subset (by simp only [named]; grind))
  rw [contains_eq_admits, contains_eq_admits, contains_eq_admits, intersect, hlower, hupper]
  cases r.lower.admits .gt v <;> cases s.lower.admits .gt v <;> simp

theorem IsInt.exists_int (h : r.IsInt) (hw : w ∈ r.named) : ∃ n, w = .int n := by
  rw [named, List.mem_append, Option.mem_toList, Option.mem_toList] at hw
  exact hw.elim (h.1 w) (h.2 w)

/-- **An integer is in the intersection of ranges of integers when it is in both.** -/
theorem contains_intersect_iff (hr : r.IsInt) (hs : s.IsInt) (n : Int64) :
    (r.intersect s).contains (.int n) = true ↔
      r.contains (.int n) = true ∧ s.contains (.int n) = true := by
  have hints : ∀ w ∈ Value.int n :: (r.named ++ s.named), ∃ m, w = .int m := by
    refine List.forall_mem_cons.2 ⟨⟨n, rfl⟩, fun w hw => ?_⟩
    exact (List.mem_append.1 hw).elim hr.exists_int hs.exists_int
  rw [contains_intersect_eq (Value.noneMixed_of_ints hints), Bool.and_eq_true]

/-- The bounds of an intersection are those of the two ranges. -/
theorem mem_named_intersect (h : w ∈ (r.intersect s).named) : w ∈ r.named ++ s.named := by
  rw [named, intersect] at h
  rcases tighter_eq_or .gt r.lower s.lower with hlower | hlower <;>
    rcases tighter_eq_or .lt r.upper s.upper with hupper | hupper <;>
    rw [hlower, hupper] at h <;> simp only [named, List.mem_append] at h ⊢ <;> tauto

end Range

/-! ### Several ranges -/

/-- Ranges that are intersected in some order and grouping. -/
inductive Intersection where
  | only (r : Range)
  | both (s t : Intersection)
  deriving Repr

namespace Intersection

/-- The ranges that are intersected. -/
def ranges : Intersection → List Range
  | .only r => [r]
  | .both s t => s.ranges ++ t.ranges

/-- What is left of them. -/
def range : Intersection → Range
  | .only r => r
  | .both s t => s.range.intersect t.range

theorem mem_named_range {t : Intersection} {w : Value} (h : w ∈ t.range.named) :
    w ∈ t.ranges.flatMap Range.named := by
  induction t with
  | only r => rwa [ranges, List.flatMap_singleton]
  | both s t ihs iht =>
      rw [ranges, List.flatMap_append, List.mem_append]
      exact (List.mem_append.1 (Range.mem_named_intersect h)).imp ihs iht

/-- **However ranges are intersected, what is held is what all of them hold.** -/
theorem contains_range {t : Intersection} {v : Value}
    (hmixed : Value.NoneMixed (v :: t.ranges.flatMap Range.named)) :
    t.range.contains v = t.ranges.all (·.contains v) := by
  induction t with
  | only r => simp [range, ranges]
  | both s t ihs iht =>
      rw [ranges, List.flatMap_append] at hmixed
      have hs := ihs (hmixed.subset (by simp +contextual))
      have ht := iht (hmixed.subset (by simp +contextual))
      have hboth : Value.NoneMixed (v :: (s.range.named ++ t.range.named)) := by
        refine hmixed.subset fun w hw => ?_
        rcases List.mem_cons.1 hw with rfl | hw
        · exact List.mem_cons_self ..
        · refine List.mem_cons_of_mem _ (List.mem_append.2 ?_)
          exact (List.mem_append.1 hw).imp mem_named_range mem_named_range
      rw [range, Range.contains_intersect_eq hboth, hs, ht, ranges, List.all_append]

/-- **Intersecting is exact, in whatever order and grouping**, where no integer meets a number in
floating point: an intersection holds a value exactly when both ranges do, and intersecting the same
ranges in two ways gives ranges with the same members. -/
theorem members_exact {v : Value} :
    (∀ a b : Range, Value.NoneMixed (v :: (a.named ++ b.named)) →
      ((a.intersect b).contains v = true ↔ a.contains v = true ∧ b.contains v = true)) ∧
    (∀ s t : Intersection, s.ranges.Perm t.ranges →
      Value.NoneMixed (v :: s.ranges.flatMap Range.named) →
        s.range.contains v = t.range.contains v) := by
  refine ⟨fun a b hmixed => ?_, fun s t hperm hmixed => ?_⟩
  · rw [Range.contains_intersect_eq hmixed, Bool.and_eq_true]
  · have hmixed' : Value.NoneMixed (v :: t.ranges.flatMap Range.named) :=
      hmixed.subset fun w hw => ((hperm.flatMap_right Range.named).cons v).mem_iff.2 hw
    rw [contains_range hmixed, contains_range hmixed', hperm.all_eq]

/-- From one on, below five. -/
def fromOne : Range := ⟨.inclusive (.int 1), .exclusive (.int 5)⟩

/-- Above one, up to a text. -/
def aboveOne : Range := ⟨.exclusive (.int 1), .inclusive (.text "z")⟩

/-- All that is not null. -/
def notNull : Range := ⟨.exclusive .null, .unbounded⟩

/-- One is left out by one of three ranges, whichever of them are intersected first. -/
theorem members_exact_one :
    Value.NoneMixed (.int 1 :: (fromOne.named ++ aboveOne.named)) ∧
      ((fromOne.intersect aboveOne).contains (.int 1) = true ↔
        fromOne.contains (.int 1) = true ∧ aboveOne.contains (.int 1) = true) ∧
      ((fromOne.intersect aboveOne).intersect notNull).contains (.int 1) =
        (fromOne.intersect (notNull.intersect aboveOne)).contains (.int 1) :=
  ⟨by decide, members_exact.1 fromOne aboveOne (by decide),
    members_exact.2 (.both (.both (.only fromOne) (.only aboveOne)) (.only notNull))
      (.both (.only fromOne) (.both (.only notNull) (.only aboveOne))) (by decide) (by decide)⟩

end Intersection

end ShardedSql
