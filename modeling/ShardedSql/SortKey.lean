/-
**Sort keys: the columns that rows are ordered by.**

Main definitions:

* `ShardedSql.SortKey` — a column with a direction and a place for null;
* `ShardedSql.SortKey.extract` — the values of a row that count;
* `ShardedSql.SortKey.orderRows` — the order of such values, key by key;
* `ShardedSql.SortKey.mixesNumbers` — that order need not be total;
* `ShardedSql.SortKey.ofItems` — the keys of the items of a statement, by the labels of a cursor.

Main results:

* `ShardedSql.SortKey.order_self`, `ShardedSql.SortKey.orderRows_self` — **values equal
  themselves**.
-/

import ShardedSql.Cursor
import ShardedSql.Statement.Select

set_option relaxedAutoImplicit false
set_option autoImplicit false

namespace ShardedSql

/-- A column that rows are ordered by. -/
structure SortKey where
  index : Nat
  direction : Direction := .asc
  /-- Where null stands, in both directions.  Otherwise it is the smallest value. -/
  nulls : Option NullPlacement := none
  deriving Repr, DecidableEq, Inhabited

namespace SortKey

/-- The order of two values by their own size, in a direction. -/
def bySize (direction : Direction) (a b : Value) : Ordering :=
  match direction with
  | .asc => a.order .first b
  | .desc => (a.order .first b).swap

/-- The order of two values in the column. -/
def order (k : SortKey) (a b : Value) : Ordering :=
  match k.nulls with
  | some nulls =>
      if a.isNull || b.isNull then a.order nulls b else bySize k.direction a b
  | none => bySize k.direction a b

@[simp] theorem order_self (k : SortKey) (v : Value) : k.order v v = .eq := by
  have h : bySize k.direction v v = .eq := by cases hd : k.direction <;> simp [bySize]
  unfold order
  split
  · split <;> simp [h]
  · exact h

/-- The values of a row that count. -/
def extract (keys : List SortKey) (row : Row) : Outcome (List Value) :=
  keys.mapM fun k =>
    match row[k.index]? with
    | some v => .ok v
    | none => .error ((Fault.merge "Sort column out of range").note "column" (toString k.index))

/-- The order of the values that count in two rows: that of the first key that tells them apart. -/
def orderRows : List SortKey → List Value → List Value → Ordering
  | k :: keys, a :: as, b :: bs => (k.order a b).then (orderRows keys as bs)
  | _, _, _ => .eq

@[simp] theorem orderRows_self (keys : List SortKey) (vs : List Value) :
    orderRows keys vs vs = .eq := by
  induction keys generalizing vs with
  | nil => rfl
  | cons k keys ih =>
      cases vs with
      | nil => rfl
      | cons v vs => simp [orderRows, ih]

/-- Some column of the values that count in rows holds integers next to numbers in floating point.
Otherwise the order of the rows is total. -/
def mixesNumbers (keys : List SortKey) (rows : List (List Value)) : Bool :=
  (List.range keys.length).any fun i =>
    let column := rows.filterMap fun values => values[i]?
    column.any Value.isInt && column.any Value.isFloat

@[simp] theorem mixesNumbers_nil (rows : List (List Value)) : mixesNumbers [] rows = false := rfl

/-! ### Statements -/

/-- The label under which an item of the select list is a column with a name. -/
def columnLabel? (name : String) : Projection → Option String
  | .column _ selected alias? _ _ =>
      if Text.sameName selected name then some (alias?.getD selected) else none
  | _ => none

/-- The alias in a select list that is a name. -/
def aliasNamed? (items : List Projection) (name : String) : Option String :=
  (items.filterMap Projection.alias?).find? fun a => Text.sameName a name

/-- The alias of the added column that is a qualified name, or else the name itself. -/
def derivedLabel (s : Select) (owner : Option String) (name : String) : String :=
  match s.derived.find? fun d => Text.sameName d.expression (qualifiedName owner name) with
  | some d => d.label
  | none => name

/-- The label of the column that an item of a statement means: a selected column with the name,
then an alias, then a column that was added for the item. -/
def labelOf (s : Select) (owner : Option String) (name : String) : String :=
  match s.projections.items.findSome? (columnLabel? name) with
  | some label => label
  | none =>
      match aliasNamed? s.projections.items name with
      | some label => label
      | none => derivedLabel s owner name

/-- The place of the column that an item of a statement means. -/
def indexOf (s : Select) (labels : List String) (i : OrderItem) : Outcome Nat :=
  match i.key with
  | .position n =>
      if n = 0 ∨ labels.length < n then
        .error ((Fault.merge "ORDER BY position out of range")
          |>.note "position" (toString n) |>.note "column_count" (toString labels.length))
      else .ok (n - 1)
  | .column owner name => Cursor.indexIn labels (labelOf s owner name)

/-- The sort keys of the items of a statement, by the labels of a cursor. -/
def ofItems (s : Select) (labels : List String) (items : List OrderItem) :
    Outcome (List SortKey) :=
  items.mapM fun i => do
    let index ← indexOf s labels i
    pure ⟨index, i.direction, i.nulls⟩

end SortKey

end ShardedSql
