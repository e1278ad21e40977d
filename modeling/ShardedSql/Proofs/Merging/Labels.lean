/-
**What merging looks for is in the select list.**

Columns are added to the select list before the statement is sent to the shards, and they are looked
up by their labels when the rows come back.  The two are written apart from each other: what is
missing is decided by names, aliases and expressions of items, and what is looked up by the labels
that follow from them.  Here they are shown to fit: for every item that rows are ordered or grouped
by, and for everything that is aggregated, there is a column with the label that merging asks for.

A select list with all columns of a table in it has no labels of its own, and nothing is said of
such lists.

Main definitions:

* `ShardedSql.Cursor.IsAt` — the column at a place has a label;
* `ShardedSql.Select.Names` — **the labels that the name of an item may stand for**;
* `ShardedSql.SortKey.IsFor`, `ShardedSql.AggregateColumn.IsFor` — the columns of an item, and of an
  aggregation.

Main results:

* `ShardedSql.Select.exists_labels` — every column that a shard returns has a label;
* `ShardedSql.Select.missing?_derived` — **no item is missing once columns have been added**;
* `ShardedSql.Select.names_labelOf` — the label that is looked up is one that the name stands for;
* `ShardedSql.Select.columns_found` — **all columns that merging looks for are found**.
-/

import ShardedSql.Accumulator
import ShardedSql.SortKey
import ShardedSql.Proofs.Outcome
import Mathlib.Data.Option.Basic

set_option relaxedAutoImplicit false
set_option autoImplicit false

namespace ShardedSql

/-! ### Labels of a cursor -/

namespace Cursor

variable {labels : List String} {label : String} {i : Nat}

/-- The column at a place has a label, in some spelling. -/
def IsAt (labels : List String) (label : String) (i : Nat) : Prop :=
  ∃ l, labels[i]? = some l ∧ Text.sameName l label = true

theorem IsAt.lt_length (h : IsAt labels label i) : i < labels.length := by
  obtain ⟨l, hl, -⟩ := h
  exact (List.getElem?_eq_some_iff.1 hl).1

/-- A column is found where there is one. -/
theorem exists_indexIn (h : label ∈ labels) :
    ∃ i, indexIn labels label = .ok i ∧ IsAt labels label i := by
  unfold indexIn
  cases hfind : labels.findIdx? fun l => Text.sameName l label with
  | none =>
      have hdiffers := List.findIdx?_eq_none_iff.1 hfind label h
      rw [Text.sameName_refl] at hdiffers
      cases hdiffers
  | some i =>
      obtain ⟨hlt, hsame, -⟩ := List.findIdx?_eq_some_iff_getElem.1 hfind
      exact ⟨i, rfl, labels[i], List.getElem?_eq_getElem hlt, hsame⟩

end Cursor

/-! ### Labels of the select list -/

namespace Projection

variable {p : Projection} {name label : String}

/-- An item with an alias is returned under it. -/
theorem label_of_alias? (h : p.alias? = some label) (given : Option String) :
    p.label given = some label := by
  cases p with
  | column owner selected alias? start stop =>
      cases h
      rfl
  | aggregation kind distinct text inner alias? start stop =>
      cases h
      cases distinct <;> rfl
  | star owner start stop => cases h
  | expression text alias? start stop =>
      cases h
      rfl

/-- An item that is called a name is a column of that name, or has it as its alias. -/
theorem isCalled_iff : p.isCalled name = true ↔
    (SortKey.columnLabel? name p).isSome = true ∨ ∃ a ∈ p.alias?, Text.sameName a name = true := by
  unfold isCalled
  rw [Bool.or_eq_true, Option.any_eq_true]
  refine or_congr_left ?_
  cases p with
  | column owner selected alias? start stop =>
      simp only [SortKey.columnLabel?]
      cases Text.sameName selected name <;> simp
  | _ => simp [SortKey.columnLabel?]

/-- A column that is found by its name is returned under the label that is found. -/
theorem label_of_columnLabel? (h : SortKey.columnLabel? name p = some label)
    (given : Option String) : p.label given = some label := by
  cases p with
  | column owner selected alias? start stop =>
      simp only [SortKey.columnLabel?] at h
      split at h
      · exact h
      · cases h
  | _ => cases h

end Projection

namespace Select

variable {s : Select} {n : Numbered} {label : String}

theorem map_item_number (averages distincts : Nat) (items : List Projection) :
    (number averages distincts items).map Numbered.item = items := by
  induction items generalizing averages distincts with
  | nil => rfl
  | cons p rest ih => simp only [number, List.map_cons, ih]

theorem item_mem_of_mem_numbered (h : n ∈ s.numbered) : n.item ∈ s.projections.items := by
  rw [← map_item_number 0 0 s.projections.items]
  exact List.mem_map_of_mem h

theorem exists_mem_numbered {p : Projection} (h : p ∈ s.projections.items) :
    ∃ n ∈ s.numbered, n.item = p := by
  rw [← map_item_number 0 0 s.projections.items] at h
  exact List.mem_map.1 h

/-- The label of an item is one of the labels that a shard returns. -/
theorem label_mem_labels (hn : n ∈ s.numbered) (h : n.item.label n.distinctAlias? = some label) :
    some label ∈ s.labels := by
  rw [labels, ← h]
  exact List.mem_append_left _ (List.mem_map_of_mem hn)

/-- And so is that of a column that was added. -/
theorem derived_label_mem_labels {d : DerivedProjection} (hd : d ∈ s.derived) :
    some d.label ∈ s.labels := by
  rw [labels]
  exact List.mem_append_right _ (List.mem_map_of_mem hd)

/-- An item that is not all columns has a label, as an aggregation of distinct values without an
alias is given one. -/
theorem Numbered.exists_label (h : n.item.isStar = false) :
    ∃ label, n.item.label n.distinctAlias? = some label := by
  obtain ⟨item, averages, distincts⟩ := n
  cases item with
  | column owner name alias? start stop => exact ⟨_, rfl⟩
  | aggregation kind distinct text inner alias? start stop =>
      cases distinct with
      | true =>
          cases alias? with
          | some a => exact ⟨a, rfl⟩
          | none => exact ⟨distinctAlias distincts, rfl⟩
      | false => exact ⟨_, rfl⟩
  | star owner start stop => cases h
  | expression text alias? start stop => exact ⟨_, rfl⟩

/-- **Every column that a shard returns has a label**, where not all columns are selected. -/
theorem exists_labels (hstars : ∀ p ∈ s.projections.items, p.isStar = false) :
    ∃ labels : List String, s.labels = labels.map some := by
  refine Lists.exists_eq_map fun l hl => ?_
  rcases List.mem_append.1 hl with hl | hl
  · obtain ⟨n, hn, rfl⟩ := List.mem_map.1 hl
    exact Numbered.exists_label (hstars n.item (item_mem_of_mem_numbered hn))
  · obtain ⟨d, -, rfl⟩ := List.mem_map.1 hl
    exact ⟨d.label, rfl⟩

/-- A cursor with these labels has each of them. -/
theorem mem_of_mem_labels {labels : List String} (hlabels : s.labels = labels.map some)
    (h : some label ∈ s.labels) : label ∈ labels := by
  rw [hlabels] at h
  exact (List.mem_map_of_injective (Option.some_injective _)).1 h

/-! ### Columns that are added -/

variable {items : List Projection} {derived derived' : List DerivedProjection} {i : OrderItem}

/-- A column is not missing when an item is called its name, or when it was added. -/
theorem missing?_eq_none_iff {owner : Option String} {name : String}
    (hkey : i.key = .column owner name) : missing? items derived i = none ↔
      (∃ p ∈ items, p.isCalled name = true) ∨
        ∃ d ∈ derived, Text.sameName d.expression (qualifiedName owner name) = true := by
  unfold missing?
  rw [hkey]
  simp only [ite_eq_left_iff, reduceCtorEq, imp_false, not_not, Bool.or_eq_true, List.any_eq_true]

/-- What is not missing is not missing when more was added. -/
theorem missing?_mono (h : missing? items derived i = none) (hsub : ∀ d ∈ derived, d ∈ derived') :
    missing? items derived' i = none := by
  cases hkey : i.key with
  | position n => rw [missing?, hkey]
  | column owner name =>
      rw [missing?_eq_none_iff hkey] at h ⊢
      exact h.imp_right fun ⟨d, hd, hsame⟩ => ⟨d, hsub d hd, hsame⟩

/-- What was missing is the name of the column. -/
theorem exists_key_of_missing? {expression : String}
    (h : missing? items derived i = some expression) :
    ∃ owner name, i.key = .column owner name ∧ expression = qualifiedName owner name := by
  unfold missing? at h
  cases hkey : i.key with
  | position n =>
      rw [hkey] at h
      cases h
  | column owner name =>
      simp only [hkey] at h
      split at h
      · cases h
      · exact ⟨owner, name, rfl, (Option.some.inj h).symm⟩

section

variable (kind : DerivedKind) (stem : String)

/-- What was added before stays. -/
theorem mem_addMissing {d : DerivedProjection} (hd : d ∈ derived) (n : Nat)
    (is : List OrderItem) : d ∈ addMissing kind stem items n derived is := by
  induction is generalizing n derived with
  | nil => exact hd
  | cons i rest ih =>
      rw [addMissing]
      split
      · exact ih (List.mem_append_left _ hd) _
      · exact ih hd _

/-- **None of some items is missing once what they need has been added.** -/
theorem missing?_addMissing {is : List OrderItem} (hi : i ∈ is) (n : Nat) :
    missing? items (addMissing kind stem items n derived is) i = none := by
  induction is generalizing n derived with
  | nil => cases hi
  | cons j rest ih =>
      rw [addMissing]
      rcases List.mem_cons.1 hi with rfl | hi
      · split
        · rename_i expression hmissing
          -- the column was added just for the item
          obtain ⟨owner, name, hkey, rfl⟩ := exists_key_of_missing? hmissing
          let d : DerivedProjection := ⟨kind, qualifiedName owner name, stem ++ toString n⟩
          have hadded : missing? items (derived ++ [d]) i = none := (missing?_eq_none_iff hkey).2
            (.inr ⟨d, List.mem_append_right _ (List.mem_singleton.2 rfl), Text.sameName_refl _⟩)
          exact missing?_mono hadded fun d hd => mem_addMissing kind stem hd _ rest
        · rename_i hmissing
          exact missing?_mono hmissing fun d hd => mem_addMissing kind stem hd _ rest
      · split
        · exact ih hi _
        · exact ih hi _

end

/-- What is added for an average is in the select list. -/
theorem mem_derived_of_numbered (hn : n ∈ s.numbered) {d : DerivedProjection}
    (hd : d ∈ n.derived) : d ∈ s.derived := by
  have hmem : d ∈ s.numbered.flatMap Numbered.derived := List.mem_flatMap.2 ⟨n, hn, hd⟩
  unfold Select.derived
  simp only
  split
  · exact hmem
  · exact mem_addMissing _ _ (mem_addMissing _ _ hmem _ _) _ _

/-- **No item that rows are ordered or grouped by is missing once columns have been added**, where
not all columns are selected. -/
theorem missing?_derived (hstars : ∀ p ∈ s.projections.items, p.isStar = false)
    (hi : i ∈ s.order ++ s.groupBy) : missing? s.projections.items s.derived i = none := by
  have hany : s.projections.items.any Projection.isStar = false :=
    List.any_eq_false.2 fun p hp => by rw [hstars p hp]; exact Bool.false_ne_true
  unfold Select.derived
  simp only [hany, Bool.false_eq_true, if_false]
  rcases List.mem_append.1 hi with hi | hi
  · exact missing?_mono (missing?_addMissing _ _ hi 0) fun d hd => mem_addMissing _ _ hd _ _
  · exact missing?_addMissing _ _ hi 0

/-! ### Names -/

/-- The labels that the name of an item may stand for: that of an item of the select list that is
called so, or else that of a column that was added under the qualified name. -/
def Names (s : Select) (owner : Option String) (name label : String) : Prop :=
  (∃ n ∈ s.numbered, n.item.isCalled name = true ∧ n.item.label n.distinctAlias? = some label) ∨
    (∀ p ∈ s.projections.items, p.isCalled name = false) ∧
      ∃ d ∈ s.derived, Text.sameName d.expression (qualifiedName owner name) = true ∧
        d.label = label

variable {owner : Option String} {name : String}

/-- A label that a name stands for is one of the labels that a shard returns. -/
theorem Names.mem_labels (h : s.Names owner name label) : some label ∈ s.labels := by
  rcases h with ⟨n, hn, -, hlabel⟩ | ⟨-, d, hd, -, rfl⟩
  · exact label_mem_labels hn hlabel
  · exact derived_label_mem_labels hd

/-- The label of an item of the select list that is called a name. -/
theorem names_of_item {p : Projection} (hp : p ∈ s.projections.items)
    (hcalled : p.isCalled name = true) (hlabel : ∀ given, p.label given = some label) :
    s.Names owner name label := by
  obtain ⟨n, hn, rfl⟩ := exists_mem_numbered hp
  exact .inl ⟨n, hn, hcalled, hlabel _⟩

/-- **The label that is looked up is one that the name stands for**, where the item is not
missing. -/
theorem names_labelOf (hkey : i.key = .column owner name)
    (h : missing? s.projections.items s.derived i = none) :
    s.Names owner name (SortKey.labelOf s owner name) := by
  unfold SortKey.labelOf
  cases hcolumn : s.projections.items.findSome? (SortKey.columnLabel? name) with
  | some label =>
      obtain ⟨p, hp, hlabel⟩ := List.exists_of_findSome?_eq_some hcolumn
      have hcalled := Projection.isCalled_iff.2 (.inl (Option.isSome_of_eq_some hlabel))
      exact names_of_item hp hcalled (Projection.label_of_columnLabel? hlabel)
  | none =>
      cases halias : SortKey.aliasNamed? s.projections.items name with
      | some label =>
          obtain ⟨p, hp, hlabel⟩ := List.mem_filterMap.1 (List.mem_of_find?_eq_some halias)
          let p := fun a => Text.sameName a name
          have hsame : p label = true := List.find?_some halias
          have hcalled := Projection.isCalled_iff.2 (.inr ⟨label, hlabel, hsame⟩)
          exact names_of_item hp hcalled (Projection.label_of_alias? hlabel)
      | none =>
          -- no item is called the name, so that a column was added for it
          have hnone : ∀ p ∈ s.projections.items, p.isCalled name = false := by
            intro p hp
            rw [Bool.eq_false_iff, Ne, Projection.isCalled_iff]
            rintro (hsome | ⟨a, ha, hsame⟩)
            · rw [List.findSome?_eq_none_iff.1 hcolumn p hp] at hsome
              cases hsome
            · exact List.find?_eq_none.1 halias a (List.mem_filterMap.2 ⟨p, hp, ha⟩) hsame
          refine .inr ⟨hnone, ?_⟩
          simp only [SortKey.derivedLabel]
          rcases (missing?_eq_none_iff hkey).1 h with ⟨p, hp, hcalled⟩ | ⟨d, hd, hsame⟩
          · rw [hnone p hp] at hcalled
            cases hcalled
          · let p := fun d : DerivedProjection =>
              Text.sameName d.expression (qualifiedName owner name)
            cases hfind : s.derived.find? p with
            | none => exact absurd hsame (List.find?_eq_none.1 hfind d hd)
            | some d' =>
                have hsame' : p d' = true := List.find?_some hfind
                exact ⟨d', List.mem_of_find?_eq_some hfind, hsame', rfl⟩

end Select

/-! ### Columns that are found -/

variable {s : Select} {labels : List String}

namespace SortKey

/-- The column of an item that rows are ordered or grouped by. -/
structure IsFor (s : Select) (labels : List String) (i : OrderItem) (k : SortKey) : Prop where
  index_lt : k.index < labels.length
  direction : k.direction = i.direction
  nulls : k.nulls = i.nulls
  position : ∀ n, i.key = .position n → k.index + 1 = n
  column : ∀ owner name, i.key = .column owner name →
    ∃ label, s.Names owner name label ∧ Cursor.IsAt labels label k.index

/-- **The column of an item is found** when the item is not missing and its position, if it has one,
is one of the columns. -/
theorem exists_isFor (hlabels : s.labels = labels.map some) {i : OrderItem}
    (hposition : ∀ n, i.key = .position n → 1 ≤ n ∧ n ≤ labels.length)
    (hmissing : Select.missing? s.projections.items s.derived i = none) :
    ∃ index, indexOf s labels i = .ok index ∧
      IsFor s labels i ⟨index, i.direction, i.nulls⟩ := by
  unfold indexOf
  cases hkey : i.key with
  | position n =>
      obtain ⟨hpos, hle⟩ := hposition n hkey
      refine ⟨n - 1, if_neg (by omega), Nat.sub_one_lt_of_le hpos hle, rfl, rfl,
        fun m hm => ?_, fun owner name h => ?_⟩
      · cases hkey.symm.trans hm
        exact Nat.sub_add_cancel hpos
      · cases hkey.symm.trans h
  | column owner name =>
      have hnames := Select.names_labelOf hkey hmissing
      obtain ⟨index, hindex, hat⟩ :=
        Cursor.exists_indexIn (Select.mem_of_mem_labels hlabels hnames.mem_labels)
      refine ⟨index, hindex, hat.lt_length, rfl, rfl, fun n h => ?_, fun owner' name' h => ?_⟩
      · cases hkey.symm.trans h
      · cases hkey.symm.trans h
        exact ⟨_, hnames, hat⟩

/-- The columns of some items are found when each of them is. -/
theorem exists_ofItems {items : List OrderItem} (h : ∀ i ∈ items, ∃ index,
    indexOf s labels i = .ok index ∧ IsFor s labels i ⟨index, i.direction, i.nulls⟩) :
    ∃ keys, ofItems s labels items = .ok keys ∧ List.Forall₂ (IsFor s labels) items keys := by
  refine Outcome.exists_mapM_eq_ok fun i hi => ?_
  obtain ⟨index, hindex, hfor⟩ := h i hi
  exact ⟨_, Outcome.bind_eq_ok.2 ⟨index, hindex, rfl⟩, hfor⟩

end SortKey

namespace AggregateColumn

/-- The columns of an aggregation: the one of its outcome, and those of the count and the sum of an
average. -/
structure IsFor (labels : List String) (a : Aggregation) (c : AggregateColumn) : Prop where
  kind : c.kind = a.kind
  distinct : c.distinct = a.distinct
  index : Cursor.IsAt labels a.label c.index
  average : Option.Rel (fun p q => Cursor.IsAt labels p.1 q.1 ∧ Cursor.IsAt labels p.2 q.2)
    a.average c.average

/-- The columns of an aggregation are found where their labels are. -/
theorem exists_isFor {a : Aggregation} (hlabel : a.label ∈ labels)
    (haverage : ∀ p ∈ a.average, p.1 ∈ labels ∧ p.2 ∈ labels ∧ a.distinct = false) :
    ∃ c, ofAggregation labels a = .ok c ∧ IsFor labels a c := by
  obtain ⟨index, hindex, hat⟩ := Cursor.exists_indexIn hlabel
  obtain ⟨kind, distinct, label, average⟩ := a
  cases average with
  | none =>
      refine ⟨⟨kind, distinct, index, none⟩, ?_, rfl, rfl, hat, .none⟩
      exact Outcome.bind_eq_ok.2 ⟨none, rfl, Outcome.bind_eq_ok.2 ⟨index, hindex, rfl⟩⟩
  | some p =>
      obtain ⟨count, sum⟩ := p
      obtain ⟨hcount, hsum, rfl⟩ := haverage _ rfl
      obtain ⟨i, hi, hiat⟩ := Cursor.exists_indexIn hcount
      obtain ⟨j, hj, hjat⟩ := Cursor.exists_indexIn hsum
      refine ⟨⟨kind, false, index, some (i, j)⟩, ?_, rfl, rfl, hat, .some ⟨hiat, hjat⟩⟩
      refine Outcome.bind_eq_ok.2 ⟨i, hi, Outcome.bind_eq_ok.2 ⟨j, hj, ?_⟩⟩
      exact Outcome.bind_eq_ok.2 ⟨some (i, j), rfl, Outcome.bind_eq_ok.2 ⟨index, hindex, rfl⟩⟩

end AggregateColumn

namespace Select

/-- An aggregation is returned under its label, and the count and the sum of an average are added
under theirs. -/
theorem Numbered.of_aggregation? {n : Numbered} {a : Aggregation}
    (h : n.aggregation? = some a) :
    n.item.label n.distinctAlias? = some a.label ∧
      ∀ p ∈ a.average, a.distinct = false ∧ (∃ d ∈ n.derived, d.label = p.1) ∧
        ∃ d ∈ n.derived, d.label = p.2 := by
  obtain ⟨item, averages, distincts⟩ := n
  cases item with
  | aggregation kind distinct text inner alias? start stop =>
      cases distinct with
      | true =>
          cases h
          exact ⟨by cases alias? <;> rfl, fun p hp => by cases hp⟩
      | false =>
          cases kind with
          | avg =>
              cases h
              refine ⟨rfl, fun p hp => ?_⟩
              cases hp
              exact ⟨rfl, ⟨_, List.mem_cons_self .., rfl⟩,
                _, List.mem_cons_of_mem _ (List.mem_cons_self ..), rfl⟩
          | _ =>
              cases h
              exact ⟨rfl, fun p hp => by cases hp⟩
  | _ => cases h

/-- **All columns that merging looks for are found.**  Not all columns of a table are selected, and
items that are positions are positions of columns.  Then a cursor with the labels of the select list
has a column for every item that rows are ordered by, for every item that they are grouped by and
for every aggregation. -/
theorem columns_found (hstars : ∀ p ∈ s.projections.items, p.isStar = false)
    (hlabels : s.labels = labels.map some)
    (hpositions : ∀ i ∈ s.order ++ s.groupBy, ∀ n, i.key = .position n →
      1 ≤ n ∧ n ≤ labels.length) :
    (∃ keys, SortKey.ofItems s labels s.order = .ok keys ∧
        List.Forall₂ (SortKey.IsFor s labels) s.order keys) ∧
      (∃ keys, SortKey.ofItems s labels s.groupBy = .ok keys ∧
        List.Forall₂ (SortKey.IsFor s labels) s.groupBy keys) ∧
      ∃ columns, AggregateColumn.ofSelect s labels = .ok columns ∧
        List.Forall₂ (AggregateColumn.IsFor labels) s.aggregations columns := by
  have hfound : ∀ i ∈ s.order ++ s.groupBy, ∃ index, SortKey.indexOf s labels i = .ok index ∧
      SortKey.IsFor s labels i ⟨index, i.direction, i.nulls⟩ := fun i hi =>
    SortKey.exists_isFor hlabels (hpositions i hi) (missing?_derived hstars hi)
  refine ⟨SortKey.exists_ofItems fun i hi => hfound i (List.mem_append_left _ hi),
    SortKey.exists_ofItems fun i hi => hfound i (List.mem_append_right _ hi),
    Outcome.exists_mapM_eq_ok fun a ha => ?_⟩
  obtain ⟨n, hn, ha⟩ := List.mem_filterMap.1 ha
  obtain ⟨hlabel, haverage⟩ := Numbered.of_aggregation? ha
  refine AggregateColumn.exists_isFor
    (mem_of_mem_labels hlabels (label_mem_labels hn hlabel)) fun p hp => ?_
  obtain ⟨hdistinct, ⟨d, hd, hcount⟩, d', hd', hsum⟩ := haverage p hp
  refine ⟨mem_of_mem_labels hlabels ?_, mem_of_mem_labels hlabels ?_, hdistinct⟩
  · exact hcount ▸ derived_label_mem_labels (mem_derived_of_numbered hn hd)
  · exact hsum ▸ derived_label_mem_labels (mem_derived_of_numbered hn hd')

/-- The average price and the number of customers in each region, ordered by a status under another
name and then by the average.  The region itself is not selected. -/
def pricesByRegion : Select where
  tables := [.ofName "t_order" 66]
  projections := { items := [.ofAggregation .avg false "price" "AVG(price)" 7,
    .ofAggregation .count true "user_id" "COUNT(DISTINCT user_id)" 19,
    .column none "status" (some "st") 44 55] }
  groupBy := [.asc "region"]
  orderBy := [.desc "ST", { key := .position 1 }]

/-- The labels of the columns that a shard returns. -/
def regionLabels : List String :=
  ["AVG(price)", "AGGREGATION_DISTINCT_DERIVED_0", "st", "AVG_DERIVED_COUNT_0",
    "AVG_DERIVED_SUM_0", "GROUP_BY_DERIVED_0"]

/-- The region is found in the last column, which was added for it, and the average is made of the
two columns before that. -/
theorem columns_found_regions :
    pricesByRegion.labels = regionLabels.map some ∧
      SortKey.ofItems pricesByRegion regionLabels pricesByRegion.order =
        .ok [⟨2, .desc, none⟩, ⟨0, .asc, none⟩] ∧
      List.Forall₂ (SortKey.IsFor pricesByRegion regionLabels) pricesByRegion.groupBy
        [⟨5, .asc, none⟩] ∧
      List.Forall₂ (AggregateColumn.IsFor regionLabels) pricesByRegion.aggregations
        [⟨.avg, false, 0, some (3, 4)⟩, ⟨.count, true, 1, none⟩] := by
  have hstars : ∀ p ∈ pricesByRegion.projections.items, p.isStar = false := by decide
  have hlabels : pricesByRegion.labels = regionLabels.map some := by decide +kernel
  have hpositions : ∀ i ∈ pricesByRegion.order ++ pricesByRegion.groupBy, ∀ n,
      i.key = .position n → 1 ≤ n ∧ n ≤ regionLabels.length := by
    have hitems : pricesByRegion.order ++ pricesByRegion.groupBy =
        [.desc "ST", { key := .position 1 }, .asc "region"] := rfl
    intro i hi n hn
    rw [hitems, List.mem_cons, List.mem_cons, List.mem_singleton] at hi
    rcases hi with rfl | rfl | rfl <;> cases hn
    decide
  obtain ⟨⟨keys, hkeys, -⟩, ⟨groups, hgroups, hgroupsFor⟩, columns, hcolumns, hcolumnsFor⟩ :=
    columns_found hstars hlabels hpositions
  have hgroups' : SortKey.ofItems pricesByRegion regionLabels pricesByRegion.groupBy =
      .ok [⟨5, .asc, none⟩] := by decide +kernel
  have hcolumns' : AggregateColumn.ofSelect pricesByRegion regionLabels =
      .ok [⟨.avg, false, 0, some (3, 4)⟩, ⟨.count, true, 1, none⟩] := by decide +kernel
  cases hgroups.symm.trans hgroups'
  cases hcolumns.symm.trans hcolumns'
  exact ⟨hlabels, by decide +kernel, hgroupsFor, hcolumnsFor⟩

end Select

end ShardedSql
