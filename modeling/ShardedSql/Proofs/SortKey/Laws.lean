/-
**The laws of the order by sort keys.**

Rows are compared by the values of their keys, one key after another.  A falling direction turns
the comparison of one key around, but not where null stands if it was given a place.  Where no
column mixes integers with floating point the order is still a total one, and rows that are equal in
it have the same values, so that equal rows may be taken for one group.

Main results:

* `ShardedSql.SortKey.orderRows_eq_of_mixesNumbers` — such rows are in order by kind;
* `ShardedSql.SortKey.orderRows_of_take_eq` — the first key by which two rows differ decides;
* `ShardedSql.SortKey.orderRows_laws` — **the order is reflexive, it can be reversed, it is
  transitive, only equal values are equal in it, and null stands where it was placed**.
-/

import ShardedSql.Proofs.SortKey

set_option relaxedAutoImplicit false
set_option autoImplicit false

namespace ShardedSql

theorem Value.isNull_eq_false {v : Value} (h : v ≠ .null) : v.isNull = false :=
  Bool.eq_false_iff.2 fun hnull => h (eq_null_of_isNull hnull)

namespace SortKey

variable {keys : List SortKey} {rows : List (List Value)} {a b c : List Value}

/-! ### Columns that do not mix numbers -/

/-- Rows whose columns do not mix numbers are in order by kind. -/
theorem orderRows_eq_of_mixesNumbers (hlength : ∀ vs ∈ rows, vs.length = keys.length)
    (hmixes : mixesNumbers keys rows = false) (ha : a ∈ rows) (hb : b ∈ rows) :
    orderRows keys a b = kindOrderRows keys a b := by
  rw [mixesNumbers_eq_false_iff] at hmixes
  have hla := hlength a ha
  have hlb := hlength b hb
  refine orderRows_eq hla (List.forall₂_iff_get.2 ⟨hla.trans hlb.symm, fun i hia hib => ?_⟩)
  have hapart := hmixes i (hla ▸ hia)
  have hu : a.get ⟨i, hia⟩ ∈ a[i]? := List.getElem?_eq_getElem hia
  have hv : b.get ⟨i, hib⟩ ∈ b[i]? := List.getElem?_eq_getElem hib
  exact ⟨hapart a ha b hb _ hu _ hv, fun hab => hapart b hb a ha _ hv _ hu hab.symm⟩

/-! ### Where null stands -/

/-- **The first key by which two rows differ decides.** -/
theorem orderRows_of_take_eq {i : Nat} {k : SortKey} {u v : Value} (hk : keys[i]? = some k)
    (hu : a[i]? = some u) (hv : b[i]? = some v) (htake : a.take i = b.take i) :
    orderRows keys a b = (k.order u v).then
      (orderRows (keys.drop (i + 1)) (a.drop (i + 1)) (b.drop (i + 1))) := by
  induction i generalizing keys a b with
  | zero =>
      obtain ⟨keys, rfl⟩ := List.head?_eq_some_iff.1 (List.head?_eq_getElem?.trans hk)
      obtain ⟨a, rfl⟩ := List.head?_eq_some_iff.1 (List.head?_eq_getElem?.trans hu)
      obtain ⟨b, rfl⟩ := List.head?_eq_some_iff.1 (List.head?_eq_getElem?.trans hv)
      rfl
  | succ i ih =>
      cases keys with
      | nil => cases hk
      | cons k' keys =>
          cases a with
          | nil => cases hu
          | cons x a =>
              cases b with
              | nil => cases hv
              | cons y b =>
                  -- the rows have the same value here, which decides nothing
                  obtain ⟨rfl, htail⟩ := List.cons.inj htake
                  rw [orderRows, order_self]
                  exact ih hk hu hv htail

/-- Null has its place before or behind every other value, whatever the direction is. -/
theorem order_null_of_nulls {k : SortKey} {placement : NullPlacement}
    (hplacement : k.nulls = some placement) {v : Value} (hv : v ≠ .null) :
    k.order .null v = placement.ofNull := by
  rw [order, hplacement]
  simp only [Value.isNull, Bool.true_or, if_true]
  exact Value.order_null_left placement (Value.isNull_eq_false hv)

/-- A row that has null where another one has not comes where null was placed, if no earlier key
tells the two apart. -/
theorem orderRows_null {i : Nat} {k : SortKey} {placement : NullPlacement} {v : Value}
    (hk : keys[i]? = some k) (hplacement : k.nulls = some placement)
    (htake : a.take i = b.take i) (ha : a[i]? = some .null) (hb : b[i]? = some v)
    (hv : v ≠ .null) : orderRows keys a b = placement.ofNull := by
  rw [orderRows_of_take_eq hk ha hb htake, order_null_of_nulls hplacement hv]
  cases placement <;> rfl

/-! ### The laws -/

/-- **The laws of the order by sort keys**, for rows whose columns do not mix integers with floating
point.  A row that differs from another one first in a key with a place for null, and has null
there, comes first or last as the place is, whatever the direction of the key. -/
theorem orderRows_laws (keys : List SortKey) (rows : List (List Value))
    (hlength : ∀ vs ∈ rows, vs.length = keys.length)
    (hmixes : mixesNumbers keys rows = false) :
    (∀ a ∈ rows, orderRows keys a a = .eq) ∧
    (∀ a ∈ rows, ∀ b ∈ rows, orderRows keys b a = (orderRows keys a b).swap) ∧
    (∀ a ∈ rows, ∀ b ∈ rows, ∀ c ∈ rows, (orderRows keys a b).isLE → (orderRows keys b c).isLE →
      (orderRows keys a c).isLE) ∧
    (∀ a ∈ rows, ∀ b ∈ rows, orderRows keys a b = .eq ↔ a = b) ∧
    ∀ a ∈ rows, ∀ b ∈ rows, ∀ (i : Nat) (k : SortKey) (v : Value), keys[i]? = some k →
      a.take i = b.take i → a[i]? = some .null → b[i]? = some v → v ≠ .null →
      (k.nulls = some .first → orderRows keys a b = .lt ∧ orderRows keys b a = .gt) ∧
      (k.nulls = some .last → orderRows keys a b = .gt ∧ orderRows keys b a = .lt) := by
  have heq {a b : List Value} (ha : a ∈ rows) (hb : b ∈ rows) :=
    orderRows_eq_of_mixesNumbers hlength hmixes ha hb
  have hswap : ∀ a ∈ rows, ∀ b ∈ rows, orderRows keys b a = (orderRows keys a b).swap := by
    intro a ha b hb
    rw [heq ha hb, heq hb ha]
    exact Std.OrientedCmp.eq_swap
  refine ⟨fun a _ => orderRows_self keys a, hswap, ?transitive, ?equal, ?nulls⟩
  case transitive =>
    intro a ha b hb c hc hab hbc
    rw [heq ha hb] at hab
    rw [heq hb hc] at hbc
    rw [heq ha hc]
    exact Std.TransCmp.isLE_trans hab hbc
  case equal =>
    intro a ha b hb
    constructor
    · intro h
      exact eq_of_kindOrderRows_eq (hlength a ha) (hlength b hb) ((heq ha hb).symm.trans h)
    · rintro rfl
      exact orderRows_self keys a
  case nulls =>
    intro a ha b hb i k v hk htake hnull hv hne
    refine ⟨fun hplacement => ?_, fun hplacement => ?_⟩ <;>
    · rw [hswap a ha b hb, orderRows_null hk hplacement htake hnull hv hne]
      exact ⟨rfl, rfl⟩

/-- A text in rising order, and then a number in falling order with null behind. -/
def priceKeys : List SortKey := [⟨0, .asc, none⟩, ⟨1, .desc, some .last⟩]

/-- Some values of these keys, with null in both columns. -/
def priceRows : List (List Value) :=
  [[.text "a", .null], [.text "a", .float ⟨0x4000000000000000⟩], [.null, .null],
    [.text "b", .float ⟨0x3FF0000000000000⟩]]

/-- The row without a number comes behind the one with the same text and a number, and before those
with another text. -/
theorem orderRows_laws_prices :
    (∀ vs ∈ priceRows, vs.length = priceKeys.length) ∧
      mixesNumbers priceKeys priceRows = false ∧
      orderRows priceKeys [.text "a", .null] [.text "a", .float ⟨0x4000000000000000⟩] = .gt ∧
      (orderRows priceKeys [.text "a", .float ⟨0x4000000000000000⟩]
        [.text "b", .float ⟨0x3FF0000000000000⟩]).isLE := by
  have hlength : ∀ vs ∈ priceRows, vs.length = priceKeys.length := by decide
  have hmixes : mixesNumbers priceKeys priceRows = false := by decide
  obtain ⟨-, -, htrans, -, hnulls⟩ := orderRows_laws priceKeys priceRows hlength hmixes
  have hlast := hnulls [.text "a", .null] (by decide)
    [.text "a", .float ⟨0x4000000000000000⟩] (by decide) 1 ⟨1, .desc, some .last⟩
    (.float ⟨0x4000000000000000⟩) rfl rfl rfl rfl (by decide)
  exact ⟨hlength, hmixes, (hlast.2 rfl).1, htrans _ (by decide) [.text "a", .null] (by decide) _
    (by decide) (by decide) (by decide)⟩

end SortKey

end ShardedSql
