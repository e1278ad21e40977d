/-
**Rows whose columns do not mix integers with floating point are in a total order.**

An integer is rounded when it is compared with a number in floating point, so the order of values
is not transitive.  The order here keeps integers before floating point instead.  It is total and
transitive on all values, and where no column mixes the two it is the order that rows are merged by.

Main definitions:

* `ShardedSql.Value.kindOrder`, `ShardedSql.SortKey.kindOrder`,
  `ShardedSql.SortKey.kindOrderRows` — the order of values, of values in a column, and of the values
  of rows, with integers before floating point;
* `ShardedSql.SortKey.valuesOf`, `ShardedSql.SortKey.orderOf` — the values of a row that count, and
  the order of rows;
* `ShardedSql.SortKey.Unmixed` — no column of some rows holds integers next to floating point;
* `ShardedSql.SortKey.sortRows` — the stable sort of rows.

Main results:

* `ShardedSql.SortKey.transCmp_kindOrderRows` — **integers apart, the order is total**;
* `ShardedSql.SortKey.mixesNumbers_eq_false_iff` — what it is for columns not to mix numbers;
* `ShardedSql.SortKey.orderRows_eq`, `ShardedSql.SortKey.orderOf_eq`,
  `ShardedSql.SortKey.sortRows_eq` — **it is the order of the rows when no column mixes numbers**,
  and sorts them alike.
-/

import ShardedSql.Proofs.Sorting.Stable
import ShardedSql.SortKey

set_option relaxedAutoImplicit false
set_option autoImplicit false

namespace ShardedSql

/-- Comparing what a function takes from values is as transitive as the comparison is. -/
theorem transCmp_comap {α β : Type} (cmp : β → β → Ordering) [Std.TransCmp cmp] (f : α → β) :
    Std.TransCmp fun a b => cmp (f a) (f b) where
  eq_swap := Std.OrientedCmp.eq_swap
  isLE_trans := Std.TransCmp.isLE_trans

/-- So is the comparison the other way. -/
theorem transCmp_swap {α : Type} (cmp : α → α → Ordering) [Std.TransCmp cmp] :
    Std.TransCmp fun a b => cmp b a := Std.TransCmp.opposite

/-! ### Values -/

namespace Value

/-- The place of a kind among the kinds, integers before floating point. -/
def kind : Value → Nat
  | .null => 0
  | .bool _ => 1
  | .int _ => 2
  | .float _ => 3
  | .text _ => 4
  | .bytes _ => 5

/-- The truth value of a value of that kind. -/
def boolPart : Value → Bool
  | .bool b => b
  | _ => false

/-- The integer by which numbers of one kind are ordered. -/
def numberPart : Value → Int
  | .int n => n.toInt
  | .float x => x.orderKey
  | _ => 0

/-- The text of a value of that kind. -/
def textPart : Value → String
  | .text s => s
  | _ => ""

/-- The bytes of a value of that kind. -/
def bytesPart : Value → List UInt8
  | .bytes bs => bs
  | _ => []

/-- The order by kind, and then among the values of one kind. -/
def kindOrder : Value → Value → Ordering :=
  compareLex (compareOn kind) (compareLex (compareOn boolPart) (compareLex (compareOn numberPart)
    (compareLex (compareOn textPart) (compareOn bytesPart))))

instance transCmp_kindOrder : Std.TransCmp kindOrder := by
  unfold kindOrder
  infer_instance

/-- **Values that are equal in the order are equal.** -/
theorem eq_of_kindOrder_eq {a b : Value} (h : a.kindOrder b = .eq) : a = b := by
  simp only [kindOrder, compareLex, compareOn, Ordering.then_eq_eq, Std.compare_eq_iff_eq] at h
  obtain ⟨hkind, hbool, hnumber, htext, hbytes⟩ := h
  cases a <;> cases b <;> cases hkind
  · rfl
  · exact congrArg Value.bool hbool
  · exact congrArg Value.int (Int64.toInt_inj.1 hnumber)
  · exact congrArg Value.float (Decimal.Binary64.orderKey_injective hnumber)
  · exact congrArg Value.text htext
  · exact congrArg Value.bytes hbytes

/-- Neither value is an integer next to a number in floating point. -/
def Unmixed (a b : Value) : Prop := ¬ (a.isInt ∧ b.isFloat) ∧ ¬ (a.isFloat ∧ b.isInt)

instance (a b : Value) : Decidable (Unmixed a b) := inferInstanceAs (Decidable (¬ _ ∧ ¬ _))

theorem order_eq_kindOrder {a b : Value} (h : Unmixed a b) :
    a.order .first b = a.kindOrder b := by
  cases a <;> cases b <;> simp [Unmixed, isInt, isFloat] at h <;>
    simp [order, kindOrder, compareLex, compareOn, kind, boolPart, numberPart, textPart, bytesPart,
      rank, NullPlacement.ofNull, Decimal.Binary64.order, Std.ReflCmp.compare_self] <;> rfl

theorem eq_null_of_isNull {v : Value} (h : v.isNull = true) : v = .null := by
  cases v <;> simp_all [isNull]

theorem order_null_left (nulls : NullPlacement) {b : Value} (hb : b.isNull = false) :
    Value.null.order nulls b = nulls.ofNull := by
  cases b <;> simp_all [isNull, order]

theorem order_null_right (nulls : NullPlacement) {a : Value} (ha : a.isNull = false) :
    a.order nulls .null = nulls.ofNull.swap := by
  cases a <;> simp_all [isNull, order]

end Value

/-! ### Columns and rows -/

namespace SortKey

/-- Where null stands in the column: before the other values, which have place 1, or behind them. -/
def placeOfNull (k : SortKey) : Nat :=
  match k.nulls, k.direction with
  | some .first, _ => 0
  | some .last, _ => 2
  | none, .asc => 0
  | none, .desc => 2

/-- The place of a value, by whether it is null. -/
def nullPlace (k : SortKey) (v : Value) : Nat := if v.isNull then k.placeOfNull else 1

/-- The order by kind in a direction. -/
def kindOrderIn : Direction → Value → Value → Ordering
  | .asc => Value.kindOrder
  | .desc => fun a b => Value.kindOrder b a

/-- The order of two values in the column, integers before floating point. -/
def kindOrder (k : SortKey) : Value → Value → Ordering :=
  compareLex (compareOn k.nullPlace) (kindOrderIn k.direction)

instance transCmp_kindOrder (k : SortKey) : Std.TransCmp k.kindOrder := by
  have hin : Std.TransCmp (kindOrderIn k.direction) := by
    cases k.direction with
    | asc => exact Value.transCmp_kindOrder
    | desc => exact transCmp_swap Value.kindOrder
  unfold kindOrder
  infer_instance

/-- By their own size values are in the order by kind. -/
theorem bySize_eq_kindOrderIn (direction : Direction) {a b : Value} (h : a.Unmixed b) :
    bySize direction a b = kindOrderIn direction a b := by
  cases direction with
  | asc => exact Value.order_eq_kindOrder h
  | desc =>
      rw [bySize, Value.order_eq_kindOrder h, kindOrderIn]
      exact Std.OrientedCmp.eq_swap.symm

/-- Null comes before or behind the other values, as its place is. -/
theorem order_null_left (k : SortKey) {b : Value} (hb : b.isNull = false) :
    k.order .null b = compare k.placeOfNull 1 := by
  have hnull (nulls : NullPlacement) := Value.order_null_left nulls hb
  obtain ⟨index, direction, nulls⟩ := k
  cases nulls with
  | none => cases direction <;> simp only [order, bySize, hnull] <;> rfl
  | some nulls =>
      simp only [order, Value.isNull, Bool.true_or, if_true, hnull]
      cases nulls <;> rfl

theorem order_null_right (k : SortKey) {a : Value} (ha : a.isNull = false) :
    k.order a .null = compare 1 k.placeOfNull := by
  have hnull (nulls : NullPlacement) := Value.order_null_right nulls ha
  obtain ⟨index, direction, nulls⟩ := k
  cases nulls with
  | none => cases direction <;> simp only [order, bySize, hnull] <;> rfl
  | some nulls =>
      simp only [order, Value.isNull, Bool.or_true, if_true, hnull]
      cases nulls <;> rfl

theorem placeOfNull_cases (k : SortKey) : k.placeOfNull = 0 ∨ k.placeOfNull = 2 := by
  unfold placeOfNull
  split <;> simp

/-- **In a column without a mix of numbers the order is that by kind.** -/
theorem order_eq_kindOrder (k : SortKey) {a b : Value} (h : a.Unmixed b) :
    k.order a b = k.kindOrder a b := by
  unfold kindOrder compareLex compareOn nullPlace
  -- the placement of null decides unless neither value is null, and then their sizes do
  cases ha : a.isNull with
  | true =>
      cases Value.eq_null_of_isNull ha
      cases hb : b.isNull with
      | true =>
          cases Value.eq_null_of_isNull hb
          rw [order_self]
          rcases placeOfNull_cases k with hp | hp <;> rw [hp] <;> cases k.direction <;> rfl
      | false =>
          rw [order_null_left k hb]
          rcases placeOfNull_cases k with hp | hp <;> rw [hp] <;> rfl
  | false =>
      cases hb : b.isNull with
      | true =>
          cases Value.eq_null_of_isNull hb
          rw [order_null_right k ha]
          rcases placeOfNull_cases k with hp | hp <;> rw [hp] <;> rfl
      | false =>
          have hsize : k.order a b = bySize k.direction a b := by
            unfold order
            split
            · simp [ha, hb]
            · rfl
          rw [hsize, bySize_eq_kindOrderIn _ h]
          rfl

/-- The order of the values that count in two rows, integers before floating point. -/
def kindOrderRows : List SortKey → List Value → List Value → Ordering
  | [], _, _ => .eq
  | k :: keys, as, bs =>
      (k.kindOrder (as.headD .null) (bs.headD .null)).then (kindOrderRows keys as.tail bs.tail)

/-- **With integers before floating point, rows are in a total order.** -/
instance transCmp_kindOrderRows (keys : List SortKey) : Std.TransCmp (kindOrderRows keys) := by
  induction keys with
  | nil => exact { eq_swap := rfl, isLE_trans := fun _ _ => rfl }
  | cons k keys ih =>
      -- the order of the heads, and then of the tails
      have hhead := transCmp_comap k.kindOrder fun as : List Value => as.headD .null
      have htail := transCmp_comap (kindOrderRows keys) fun as : List Value => as.tail
      exact inferInstanceAs (Std.TransCmp (compareLex _ _))

theorem eq_of_kindOrder_eq (k : SortKey) {a b : Value} (h : k.kindOrder a b = .eq) : a = b := by
  have hin : kindOrderIn k.direction a b = .eq := by
    simp only [kindOrder, compareLex, Ordering.then_eq_eq] at h
    exact h.2
  cases hd : k.direction with
  | asc =>
      rw [hd] at hin
      exact Value.eq_of_kindOrder_eq hin
  | desc =>
      rw [hd] at hin
      exact (Value.eq_of_kindOrder_eq hin).symm

/-- **Rows that are equal in the order have the same values that count.** -/
theorem eq_of_kindOrderRows_eq {keys : List SortKey} {as bs : List Value}
    (ha : as.length = keys.length) (hb : bs.length = keys.length)
    (h : kindOrderRows keys as bs = .eq) : as = bs := by
  induction keys generalizing as bs with
  | nil => rw [List.length_eq_zero_iff.1 ha, List.length_eq_zero_iff.1 hb]
  | cons k keys ih =>
      obtain ⟨a, as, rfl⟩ := List.exists_cons_of_length_eq_add_one ha
      obtain ⟨b, bs, rfl⟩ := List.exists_cons_of_length_eq_add_one hb
      obtain ⟨hhead, htail⟩ := Ordering.then_eq_eq.1 h
      have hab : a = b := eq_of_kindOrder_eq k hhead
      have hrest : as = bs := ih (Nat.succ.inj ha) (Nat.succ.inj hb) htail
      rw [hab, hrest]

/-- **The values that count in two rows are in that order, when no column mixes numbers.** -/
theorem orderRows_eq {keys : List SortKey} {as bs : List Value} (ha : as.length = keys.length)
    (h : List.Forall₂ Value.Unmixed as bs) : orderRows keys as bs = kindOrderRows keys as bs := by
  induction h generalizing keys with
  | nil =>
      rw [List.eq_nil_of_length_eq_zero ha.symm]
      rfl
  | @cons a b as bs hhead _ ih =>
      obtain ⟨k, keys, rfl⟩ := List.exists_cons_of_length_eq_add_one ha.symm
      rw [orderRows, order_eq_kindOrder k hhead, ih (Nat.succ.inj ha)]
      rfl

/-- No column mixes numbers when no two rows have an integer and a number in floating point in
it. -/
theorem mixesNumbers_eq_false_iff {keys : List SortKey} {rows : List (List Value)} :
    mixesNumbers keys rows = false ↔ ∀ i < keys.length, ∀ a ∈ rows, ∀ b ∈ rows, ∀ u ∈ a[i]?,
      ∀ v ∈ b[i]?, ¬ (u.isInt ∧ v.isFloat) := by
  simp only [mixesNumbers, List.any_eq_false, List.mem_range, Bool.and_eq_true, List.any_eq_true,
    List.mem_filterMap, Option.mem_def]
  constructor
  · intro h i hi a ha b hb u hu v hv huv
    exact h i hi ⟨⟨u, ⟨a, ha, hu⟩, huv.1⟩, v, ⟨b, hb, hv⟩, huv.2⟩
  · rintro h i hi ⟨⟨u, ⟨a, ha, hu⟩, hint⟩, v, ⟨b, hb, hv⟩, hfloat⟩
    exact h i hi a ha b hb u hu v hv ⟨hint, hfloat⟩

/-- The values of a row that count, where null stands for columns that the row does not have. -/
def valuesOf (keys : List SortKey) (row : Row) : List Value :=
  keys.map fun k => row.getD k.index .null

/-- The order of two rows by the values that count. -/
def orderOf (keys : List SortKey) (a b : Row) : Ordering :=
  orderRows keys (valuesOf keys a) (valuesOf keys b)

/-- No column that counts holds integers next to floating point in some rows. -/
def Unmixed (keys : List SortKey) (rows : List Row) : Prop :=
  ∀ k ∈ keys, ∀ a ∈ rows, ∀ b ∈ rows,
    ¬ ((a.getD k.index .null).isInt ∧ (b.getD k.index .null).isFloat)

/-- **The order of rows is that with integers before floating point, when no column mixes them.** -/
theorem orderOf_eq {keys : List SortKey} {rows : List Row} (h : Unmixed keys rows) {a b : Row}
    (ha : a ∈ rows) (hb : b ∈ rows) :
    orderOf keys a b = kindOrderRows keys (valuesOf keys a) (valuesOf keys b) := by
  refine orderRows_eq (List.length_map _) ?_
  rw [valuesOf, valuesOf, List.forall₂_map_left_iff, List.forall₂_map_right_iff, List.forall₂_same]
  exact fun k hk => ⟨h k hk a ha b hb, fun hab => h k hk b hb a ha hab.symm⟩

/-- Rows in order, equal ones as they came. -/
def sortRows (keys : List SortKey) (rows : List Row) : List Row :=
  rows.mergeSort fun a b => (orderOf keys a b).isLE

/-- The order of rows by the values that count, integers before floating point. -/
def kindOrderOf (keys : List SortKey) (a b : Row) : Ordering :=
  kindOrderRows keys (valuesOf keys a) (valuesOf keys b)

instance transCmp_kindOrderOf (keys : List SortKey) : Std.TransCmp (kindOrderOf keys) :=
  transCmp_comap (kindOrderRows keys) (valuesOf keys)

theorem sortRows_eq {keys : List SortKey} {rows : List Row} (h : Unmixed keys rows) :
    sortRows keys rows = rows.mergeSort fun a b => (kindOrderOf keys a b).isLE :=
  Sorting.mergeSort_congr fun _ ha _ hb => by rw [orderOf_eq h ha hb, kindOrderOf]

end SortKey

end ShardedSql
