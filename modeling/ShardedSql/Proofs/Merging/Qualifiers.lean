/-
**Columns of different tables with one name.**

An item of `ORDER BY` or `GROUP BY` may name a column with its table, as `b.id` does.  One would
like rows to be ordered by this column then.  That fails when a column of another table has the same
name and is selected: qualifiers are not looked at, neither where columns are added to the select
list nor where the column of an item is looked up, so that `SELECT a.id, b.id ... ORDER BY b.id`
orders rows by `a.id`.  They are not looked at either when groups are compared with the order, so
that groups by `a.id` count as ordered by `b.id`.

What an item is taken for is the first selected column with its name, of whatever table, and only
where there is none the column that was added under its qualified name.  So it is the column that
the item names exactly when that first column is one of its table.

Main definitions:

* `ShardedSql.Select.takenFor?` — **the place of the column that an item is taken for**;
* `ShardedSql.Select.isOwn` — the column at a place is the one that an item names;
* `ShardedSql.Select.firstIsOf` — the first selected column with a name is one of a table;
* `ShardedSql.Select.OneQualifier` — rows are not ordered or grouped by one name with two
  qualifiers.

Main results:

* `ShardedSql.Select.labelOf_takenFor?` — the label that is looked up is that of the column at this
  place;
* `ShardedSql.Select.isOwn_takenFor?` — **the column at this place is the one that the item names
  exactly when the first selected column with its name is**;
* `ShardedSql.Select.qualified_columns` — **the columns that are found for qualified items, and what
  it means that groups are ordered**.
-/

import ShardedSql.Proofs.Merging.Places

set_option relaxedAutoImplicit false
set_option autoImplicit false

namespace ShardedSql

open Cursor (IsNew StandsFirst)

/-! ### Names of columns -/

/-- Two qualifiers are the same table, or there are none. -/
def sameQualifier : Option String → Option String → Bool
  | some a, some b => Text.sameName a b
  | none, none => true
  | _, _ => false

/-- The qualifier and the name of a column that is selected. -/
def Projection.column? : Projection → Option (Option String × String)
  | .column owner name _ _ _ => some (owner, name)
  | _ => none

namespace OrderItem

/-- The qualifier and the name of the column that an item names. -/
def column? (i : OrderItem) : Option (Option String × String) :=
  match i.key with
  | .column owner name => some (owner, name)
  | .position _ => none

/-- The items name the same column of the same table, or the same place. -/
def namesSame (a b : OrderItem) : Bool :=
  match a.key, b.key with
  | .column o x, .column p y => sameQualifier o p && Text.sameName x y
  | .position x, .position y => x = y
  | _, _ => false

end OrderItem

namespace Projection

/-- The item is a column with a name, of any table. -/
def isColumn (name : String) (p : Projection) : Bool :=
  p.column?.any fun c => Text.sameName c.2 name

/-- The item is a column of a table, with its name. -/
def isColumnOf (owner name : String) (p : Projection) : Bool :=
  p.column?.any fun c => sameQualifier c.1 (some owner) && Text.sameName c.2 name

theorem isSome_columnLabel? (name : String) (p : Projection) :
    (SortKey.columnLabel? name p).isSome = p.isColumn name := by
  cases p with
  | column owner selected alias? start stop =>
      simp only [SortKey.columnLabel?, isColumn, column?, Option.any_some]
      cases Text.sameName selected name <;> rfl
  | _ => rfl

theorem columnLabel?_eq_none_iff {name : String} {p : Projection} :
    SortKey.columnLabel? name p = none ↔ p.isColumn name = false := by
  rw [← isSome_columnLabel?, Option.isSome_eq_false_iff, Option.isNone_iff_eq_none]

end Projection

namespace Select

variable {s : Select} {labels : List String} {owner : Option String} {name : String}
  {place index : Nat} {i : OrderItem}

/-- The place of the column that an item is taken for: of the first selected column with its name,
whatever its qualifier, and else of the column that was added under its qualified name. -/
def takenFor? (s : Select) (owner : Option String) (name : String) : Option Nat :=
  match s.projections.items.findIdx? (Projection.isColumn name) with
  | some place => some place
  | none =>
      (s.derived.findIdx? fun d => Text.sameName d.expression (qualifiedName owner name)).map
        (s.projections.items.length + ·)

/-- The column at a place is the one that an item names: a selected column of the same table with
the same name, or the column that was added under the qualified name. -/
def isOwn (s : Select) (owner name : String) (place : Nat) : Bool :=
  match s.projections.items[place]? with
  | some p => p.isColumnOf owner name
  | none =>
      s.derived[place - s.projections.items.length]?.any fun d =>
        Text.sameName d.expression (qualifiedName (some owner) name)

/-- The first selected column with a name, if there is one, is a column of a table. -/
def firstIsOf (s : Select) (owner name : String) : Bool :=
  (s.projections.items.find? (Projection.isColumn name)).all (Projection.isColumnOf owner name)

/-- The names of the columns that rows are ordered or grouped by, with their qualifiers. -/
def itemNames (s : Select) : List (Option String × String) :=
  (s.order ++ s.groupBy).filterMap OrderItem.column?

/-- Rows are not ordered or grouped by one name with two qualifiers. -/
def OneQualifier (s : Select) : Prop :=
  ∀ a ∈ s.itemNames, ∀ b ∈ s.itemNames,
    Text.sameName a.2 b.2 = true → sameQualifier a.1 b.1 = true

/-- No alias is the name of an item that rows are ordered or grouped by. -/
def AliasesApart (s : Select) : Prop :=
  ∀ i ∈ s.order ++ s.groupBy, ∀ c ∈ i.column?, ∀ p ∈ s.projections.items, ∀ a ∈ p.alias?,
    Text.sameName a c.2 = false

theorem mem_itemNames (hi : i ∈ s.order ++ s.groupBy) (h : i.key = .column owner name) :
    (owner, name) ∈ s.itemNames :=
  List.mem_filterMap.2 ⟨i, hi, by rw [OrderItem.column?, h]⟩

/-! ### What an item is taken for -/

/-- The first selected column with a name is returned under the label that is looked up. -/
theorem label_of_findIdx?_items (hlabels : s.labels = labels.map some)
    (h : s.projections.items.findIdx? (Projection.isColumn name) = some place) :
    labels[place]? = some (SortKey.labelOf s owner name) := by
  obtain ⟨hlt, hcolumn, hbefore⟩ := List.findIdx?_eq_some_iff_getElem.1 h
  rw [← Projection.isSome_columnLabel?, Option.isSome_iff_exists] at hcolumn
  obtain ⟨label, hlabel⟩ := hcolumn
  have hfirst : s.projections.items.findSome? (SortKey.columnLabel? name) = some label := by
    refine List.findSome?_eq_some_iff.2 ⟨s.projections.items.take place,
      s.projections.items[place], s.projections.items.drop (place + 1), ?_, hlabel, ?_⟩
    · rw [← List.drop_eq_getElem_cons hlt, List.take_append_drop]
    · intro p hp
      obtain ⟨j, hj, rfl⟩ := List.mem_take_iff_getElem.1 hp
      exact Projection.columnLabel?_eq_none_iff.2 (Bool.eq_false_iff.2 (hbefore j (by omega)))
  obtain ⟨n, hn, hitem⟩ := exists_numbered (List.getElem?_eq_getElem hlt)
  rw [SortKey.labelOf, hfirst]
  refine label_of_item hlabels hn ?_
  rw [hitem]
  exact Projection.label_of_columnLabel? hlabel _

/-- The first column that was added under a qualified name is returned under the label that is
looked up, when no item is called the name. -/
theorem label_of_findIdx?_derived (hlabels : s.labels = labels.map some)
    (hnone : ∀ p ∈ s.projections.items, p.isCalled name = false)
    (h : (s.derived.findIdx? fun d => Text.sameName d.expression (qualifiedName owner name)) =
      some place) :
    labels[s.projections.items.length + place]? = some (SortKey.labelOf s owner name) := by
  have hcolumns : s.projections.items.findSome? (SortKey.columnLabel? name) = none := by
    refine List.findSome?_eq_none_iff.2 fun p hp => ?_
    rw [← Option.isNone_iff_eq_none, ← Option.isSome_eq_false_iff, Bool.eq_false_iff]
    intro hsome
    exact Bool.eq_false_iff.1 (hnone p hp) (Projection.isCalled_iff.2 (.inl hsome))
  have haliases : SortKey.aliasNamed? s.projections.items name = none := by
    refine List.find?_eq_none.2 fun a ha hsame => ?_
    obtain ⟨p, hp, halias⟩ := List.mem_filterMap.1 ha
    exact Bool.eq_false_iff.1 (hnone p hp) (Projection.isCalled_iff.2 (.inr ⟨a, halias, hsame⟩))
  obtain ⟨hlt, hat⟩ := List.findIdx?_eq_some_iff_findIdx_eq.1 h
  have hfirst : (s.derived.find? fun d =>
      Text.sameName d.expression (qualifiedName owner name)) = some s.derived[place] := by
    rw [List.find?_eq_getElem?_findIdx, hat, List.getElem?_eq_getElem hlt]
  rw [SortKey.labelOf, hcolumns, haliases]
  simp only [SortKey.derivedLabel, hfirst]
  exact label_of_derived hlabels (List.getElem?_eq_getElem hlt)

/-- **The label that is looked up is that of the column that the item is taken for**, when the item
is not missing and is no alias. -/
theorem labelOf_takenFor? (hlabels : s.labels = labels.map some)
    (haliases : ∀ p ∈ s.projections.items, ∀ a ∈ p.alias?, Text.sameName a name = false)
    (hkey : i.key = .column owner name)
    (hmissing : missing? s.projections.items s.derived i = none) :
    ∃ place, s.takenFor? owner name = some place ∧
      labels[place]? = some (SortKey.labelOf s owner name) := by
  unfold takenFor?
  cases hfind : s.projections.items.findIdx? (Projection.isColumn name) with
  | some place => exact ⟨place, rfl, label_of_findIdx?_items hlabels hfind⟩
  | none =>
      have hnone : ∀ p ∈ s.projections.items, p.isCalled name = false := by
        intro p hp
        rw [Bool.eq_false_iff, Ne, Projection.isCalled_iff]
        rintro (hsome | ⟨a, ha, hsame⟩)
        · rw [Projection.isSome_columnLabel?, List.findIdx?_eq_none_iff.1 hfind p hp] at hsome
          cases hsome
        · rw [haliases p hp a ha] at hsame
          cases hsame
      -- no item is called the name, so that a column was added for it
      rcases (missing?_eq_none_iff hkey).1 hmissing with ⟨p, hp, hcalled⟩ | ⟨d, hd, hsame⟩
      · rw [hnone p hp] at hcalled
        cases hcalled
      · cases hfindd : s.derived.findIdx? fun d =>
            Text.sameName d.expression (qualifiedName owner name) with
        | none =>
            rw [List.findIdx?_eq_none_iff.1 hfindd d hd] at hsame
            cases hsame
        | some j => exact ⟨_, rfl, label_of_findIdx?_derived hlabels hnone hfindd⟩

/-- **What an item is taken for is its own column exactly when the first selected column with its
name is.** -/
theorem isOwn_takenFor? {owner : String} (h : s.takenFor? (some owner) name = some place) :
    s.isOwn owner name place = s.firstIsOf owner name := by
  unfold takenFor? at h
  unfold isOwn firstIsOf
  split at h
  · rename_i j hfind
    cases h
    obtain ⟨hlt, hat⟩ := List.findIdx?_eq_some_iff_findIdx_eq.1 hfind
    rw [List.find?_eq_getElem?_findIdx, hat, List.getElem?_eq_getElem hlt]
    rfl
  · rename_i hnone
    obtain ⟨j, hfind, rfl⟩ := Option.map_eq_some_iff.1 h
    obtain ⟨hlt, hsame, -⟩ := List.findIdx?_eq_some_iff_getElem.1 hfind
    have hno : s.projections.items.find? (Projection.isColumn name) = none :=
      List.find?_eq_none.2 fun p hp => Bool.eq_false_iff.1 (List.findIdx?_eq_none_iff.1 hnone p hp)
    rw [hno, List.getElem?_eq_none (Nat.le_add_right ..), Nat.add_sub_cancel_left,
      List.getElem?_eq_getElem hlt]
    exact hsame

/-! ### Groups and order -/

/-- Groups are ordered when the items of both are compared one by one, without qualifiers. -/
theorem groupsAreOrdered_iff : s.groupsAreOrdered = true ↔ s.groupBy ≠ [] ∧
    List.Forall₂ (fun a b => a.sameKey b = true ∧ a.direction = b.direction) s.groupBy
      s.order := by
  have hsame : ∀ a b : OrderItem,
      a.sameItem b = true ↔ a.sameKey b = true ∧ a.direction = b.direction := by
    intro a b
    rw [OrderItem.sameItem, Bool.and_eq_true, decide_eq_true_eq]
  rw [List.forall₂_iff_zip]
  simp only [groupsAreOrdered, Bool.and_eq_true, Bool.not_eq_true', List.isEmpty_eq_false_iff,
    decide_eq_true_eq, List.all_eq_true, and_assoc, hsame, Prod.forall]

/-- Items with the same key name the same column of the same table, where no name has two
qualifiers. -/
theorem namesSame_of_sameKey {a b : OrderItem} (hone : s.OneQualifier)
    (ha : a ∈ s.order ++ s.groupBy) (hb : b ∈ s.order ++ s.groupBy) (h : a.sameKey b = true) :
    a.namesSame b = true := by
  unfold OrderItem.sameKey at h
  unfold OrderItem.namesSame
  cases hakey : a.key with
  | column o x =>
      cases hbkey : b.key with
      | column p y =>
          simp only [hakey, hbkey] at h
          rw [Bool.and_eq_true]
          exact ⟨hone _ (mem_itemNames ha hakey) _ (mem_itemNames hb hbkey) h, h⟩
      | position n => simp only [hakey, hbkey, Bool.false_eq_true] at h
  | position n =>
      cases hbkey : b.key with
      | column p y => simp only [hakey, hbkey, Bool.false_eq_true] at h
      | position m => simpa only [hakey, hbkey] using h

theorem namesSame_self (a : OrderItem) : a.namesSame a = true := by
  unfold OrderItem.namesSame
  cases a.key with
  | column o x => cases o <;> simp [sameQualifier]
  | position n => simp

/-! ### The columns of qualified items -/

/-- What is found for a qualified item: the first column with the label of the one that it is taken
for.  Where that label is new this is the column that the item names, unless the first selected
column with its name is one of another table. -/
def FindsOwn (s : Select) (labels : List String) (i : OrderItem) (index : Nat) : Prop :=
  ∀ owner name, i.key = .column (some owner) name →
    ∃ place, s.takenFor? (some owner) name = some place ∧ StandsFirst labels place index ∧
      (IsNew labels place → s.isOwn owner name index = s.firstIsOf owner name)

/-- The column of an item is found where it is taken for one. -/
theorem exists_findsOwn (hstars : ∀ p ∈ s.projections.items, p.isStar = false)
    (hlabels : s.labels = labels.map some) (haliases : s.AliasesApart)
    (hi : i ∈ s.order ++ s.groupBy)
    (hposition : ∀ n, i.key = .position n → 1 ≤ n ∧ n ≤ labels.length) :
    ∃ index, SortKey.indexOf s labels i = .ok index ∧ s.FindsOwn labels i index := by
  have hmissing := missing?_derived hstars hi
  unfold SortKey.indexOf
  cases hkey : i.key with
  | position n =>
      obtain ⟨hpos, hle⟩ := hposition n hkey
      refine ⟨n - 1, if_neg (by omega), fun owner name h => ?_⟩
      cases hkey.symm.trans h
  | column owner name =>
      have hapart : ∀ p ∈ s.projections.items, ∀ a ∈ p.alias?, Text.sameName a name = false :=
        haliases i hi (owner, name) (by rw [OrderItem.column?, hkey]; rfl)
      obtain ⟨place, htaken, hlabel⟩ := labelOf_takenFor? hlabels hapart hkey hmissing
      obtain ⟨index, hindex, hfirst⟩ := Cursor.exists_standsFirst hlabel
      refine ⟨index, hindex, fun owner' name' h => ?_⟩
      cases hkey.symm.trans h
      refine ⟨place, htaken, hfirst, fun hnew => ?_⟩
      rw [hfirst.eq_iff.2 hnew]
      exact isOwn_takenFor? htaken

/-- **The columns that are found for qualified items, and what it means that groups are ordered.**
Not all columns of a table are selected, a cursor has the labels of the select list, no alias is the
name of an item, and items that are positions are positions of columns.  Then every qualified item
is found in the first column with the label of the one that it is taken for, which is its own column
exactly when the first selected column with its name is one of its table, or when there is none and
a column was added for it.  Groups count as ordered when the items of both have the same names and
directions, whatever their qualifiers; these name the same columns when no name has two qualifiers
in the items, or when no order is given. -/
theorem qualified_columns (hstars : ∀ p ∈ s.projections.items, p.isStar = false)
    (hlabels : s.labels = labels.map some) (haliases : s.AliasesApart) :
    (∀ items, (∀ i ∈ items, i ∈ s.order ++ s.groupBy) →
      (∀ i ∈ items, ∀ n, i.key = .position n → 1 ≤ n ∧ n ≤ labels.length) →
      ∃ keys, SortKey.ofItems s labels items = .ok keys ∧
        List.Forall₂ (fun i k => s.FindsOwn labels i k.index) items keys) ∧
    (s.groupsAreOrdered = true ↔ s.groupBy ≠ [] ∧
      List.Forall₂ (fun a b => a.sameKey b = true ∧ a.direction = b.direction) s.groupBy
        s.order) ∧
    (s.OneQualifier ∨ s.orderBy = [] → s.groupsAreOrdered = true →
      List.Forall₂ (fun a b => a.namesSame b = true) s.groupBy s.order) := by
  refine ⟨fun items hitems hpositions => ?_, groupsAreOrdered_iff, fun hsame hordered => ?_⟩
  · refine Outcome.exists_mapM_eq_ok fun i hi => ?_
    obtain ⟨index, hindex, howns⟩ :=
      exists_findsOwn hstars hlabels haliases (hitems i hi) (hpositions i hi)
    exact ⟨_, Outcome.bind_eq_ok.2 ⟨index, hindex, rfl⟩, howns⟩
  · obtain ⟨hne, hkeys⟩ := groupsAreOrdered_iff.1 hordered
    rcases hsame with hone | hgenerated
    · refine List.forall₂_iff_zip.2 ⟨hkeys.length_eq, fun {a b} hab => ?_⟩
      have hmem := List.of_mem_zip hab
      exact namesSame_of_sameKey hone (List.mem_append_right _ hmem.1)
        (List.mem_append_left _ hmem.2) ((List.forall₂_iff_zip.1 hkeys).2 hab).1
    · have horder : s.order = s.groupBy := by
        rw [order, orderGenerated, hgenerated]
        exact if_pos (by simpa using hne)
      rw [horder]
      exact List.forall₂_same.2 fun a _ => namesSame_self a

/-- The names of users with the prices of their orders, by name and by the status of the order,
which is not selected. -/
def pricesOfUsers : Select where
  tables := [.ofName "t_user" 27, .ofName "t_order" 37]
  projections := { items := [.column (some "t_user") "name" none 7 17,
    .column (some "t_order") "price" none 20 32] }
  groupBy := [{ key := .column (some "t_user") "name" },
    { key := .column (some "t_order") "status" }]
  orderBy := [{ key := .column (some "t_user") "name" },
    { key := .column (some "t_order") "status" }]

/-- The labels of the columns that a shard returns. -/
def priceLabels : List String := ["name", "price", "ORDER_BY_DERIVED_0"]

/-- The name is found in the first column and the status in the one that was added for it. -/
theorem qualified_columns_prices :
    SortKey.ofItems pricesOfUsers priceLabels pricesOfUsers.order =
        .ok [⟨0, .asc, none⟩, ⟨2, .asc, none⟩] ∧
      pricesOfUsers.isOwn "t_user" "name" 0 = true ∧
      pricesOfUsers.isOwn "t_order" "status" 2 = true ∧
      List.Forall₂ (fun a b => a.namesSame b = true) pricesOfUsers.groupBy
        pricesOfUsers.order := by
  have hlabels : pricesOfUsers.labels = priceLabels.map some := by decide +kernel
  have haliases : pricesOfUsers.AliasesApart := by
    intro i _ c _ p hp a ha
    have hnone : ∀ p ∈ pricesOfUsers.projections.items, p.alias? = none := by decide
    rw [hnone p hp] at ha
    cases ha
  have hone : pricesOfUsers.OneQualifier := by
    unfold OneQualifier
    decide +kernel
  have hpositions : ∀ i ∈ pricesOfUsers.order, ∀ n, i.key = .position n →
      1 ≤ n ∧ n ≤ priceLabels.length := by
    intro i hi n hn
    have hcolumns : ∀ i ∈ pricesOfUsers.order, i.column?.isSome := by decide
    have hsome := hcolumns i hi
    rw [OrderItem.column?, hn] at hsome
    cases hsome
  obtain ⟨hfound, -, hsame⟩ := qualified_columns (by decide) hlabels haliases
  obtain ⟨keys, hkeys, howns⟩ :=
    hfound pricesOfUsers.order (fun i hi => List.mem_append_left _ hi) hpositions
  have hkeys' : SortKey.ofItems pricesOfUsers priceLabels pricesOfUsers.order =
      .ok [⟨0, .asc, none⟩, ⟨2, .asc, none⟩] := by decide +kernel
  cases hkeys.symm.trans hkeys'
  have hnew : ∀ place, IsNew priceLabels place := Cursor.isNew_of_pairwise (by decide +kernel)
  have horder : pricesOfUsers.order = [{ key := .column (some "t_user") "name" },
      { key := .column (some "t_order") "status" }] := rfl
  rw [horder] at howns
  cases howns with
  | cons hname howns =>
      cases howns with
      | cons hstatus _ =>
          obtain ⟨_, -, -, hname⟩ := hname _ _ rfl
          obtain ⟨_, -, -, hstatus⟩ := hstatus _ _ rfl
          exact ⟨hkeys, (hname (hnew _)).trans (by decide +kernel),
            (hstatus (hnew _)).trans (by decide +kernel), hsame (.inl hone) (by decide +kernel)⟩

/-- The identifiers of two tables, grouped by that of the first and ordered by that of the
second. -/
def joinedIds : Select where
  tables := [.ofName "t_a" 23, .ofName "t_b" 28]
  projections := { items := [.column (some "t_a") "id" none 7 12,
    .column (some "t_b") "id" none 15 20] }
  groupBy := [{ key := .column (some "t_a") "id" }]
  orderBy := [{ key := .column (some "t_b") "id" }]

/-- The item of the order is found in the column of the other table, and the groups count as
ordered although they are those of the other table. -/
theorem qualified_columns_of_joinedIds :
    joinedIds.labels = ["id", "id"].map some ∧
      SortKey.ofItems joinedIds ["id", "id"] joinedIds.orderBy = .ok [⟨0, .asc, none⟩] ∧
      joinedIds.isOwn "t_b" "id" 0 = false ∧ joinedIds.isOwn "t_b" "id" 1 = true ∧
      joinedIds.firstIsOf "t_b" "id" = false ∧
      joinedIds.groupsAreOrdered = true ∧
      (joinedIds.groupBy.zip joinedIds.order).any (fun p => p.1.namesSame p.2) = false := by
  decide +kernel

end Select

end ShardedSql
