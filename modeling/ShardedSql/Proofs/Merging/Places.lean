/-
**The first column with a label.**

Merging asks for columns by their labels and takes the first one that has the label.  The label is
that of a column that a shard returns at some place: of an item of the select list, or of a column
that was added behind it.  What is found is that column only when no column before it has the same
label; otherwise it is the first of these.

Main definitions:

* `ShardedSql.Cursor.StandsFirst` — **the column that is found in the place of another one**;
* `ShardedSql.Cursor.IsNew` — no column before one has its label.

Main results:

* `ShardedSql.Cursor.StandsFirst.eq_iff` — **a column is found at its own place exactly when its
  label is new there**;
* `ShardedSql.Select.label_of_item`, `ShardedSql.Select.label_of_derived` — the labels of the
  columns, place by place;
* `ShardedSql.AggregateColumn.exists_ofSelect` — all aggregations are found.
-/

import ShardedSql.Proofs.Merging.Labels

set_option relaxedAutoImplicit false
set_option autoImplicit false

namespace ShardedSql

/-! ### Columns with a label -/

namespace Cursor

variable {labels : List String} {label : String} {place index : Nat}

/-- The first column with the label of the column at a place. -/
def StandsFirst (labels : List String) (place index : Nat) : Prop :=
  ∃ label, labels[place]? = some label ∧ indexIn labels label = .ok index

/-- No column before the one at a place has its label. -/
def IsNew (labels : List String) (place : Nat) : Prop :=
  ∀ label, labels[place]? = some label →
    ∀ l ∈ labels.take place, Text.sameName l label = false

theorem indexIn_eq_ok :
    indexIn labels label = .ok index ↔
      IsAt labels label index ∧ ∀ l ∈ labels.take index, Text.sameName l label = false := by
  have hfind : indexIn labels label = .ok index ↔
      labels.findIdx? (fun l => Text.sameName l label) = some index := by
    unfold indexIn
    split
    · rename_i i hi
      rw [hi, Except.ok.injEq, Option.some.injEq]
    · rename_i hnone
      simp [hnone]
  rw [hfind, List.findIdx?_eq_some_iff_getElem]
  constructor
  · rintro ⟨hlt, hsame, hbefore⟩
    refine ⟨⟨labels[index], List.getElem?_eq_getElem hlt, hsame⟩, fun l hl => ?_⟩
    obtain ⟨j, hj, rfl⟩ := List.mem_iff_getElem.1 hl
    rw [List.length_take] at hj
    rw [List.getElem_take]
    exact Bool.eq_false_iff.2 (hbefore j (by omega))
  · rintro ⟨⟨l, hl, hsame⟩, hbefore⟩
    obtain ⟨hlt, rfl⟩ := List.getElem?_eq_some_iff.1 hl
    refine ⟨hlt, hsame, fun j hj => Bool.eq_false_iff.1 (hbefore _ ?_)⟩
    exact List.mem_take_iff_getElem.2 ⟨j, by omega, rfl⟩

theorem exists_standsFirst (h : labels[place]? = some label) :
    ∃ index, indexIn labels label = .ok index ∧ StandsFirst labels place index := by
  obtain ⟨index, hindex, -⟩ := exists_indexIn (List.mem_of_getElem? h)
  exact ⟨index, hindex, label, h, hindex⟩

namespace StandsFirst

/-- What is found has the label that is asked for. -/
theorem isAt (h : StandsFirst labels place index) :
    ∃ label, labels[place]? = some label ∧ IsAt labels label index := by
  obtain ⟨label, hlabel, hindex⟩ := h
  exact ⟨label, hlabel, (indexIn_eq_ok.1 hindex).1⟩

/-- What is found has a label that is new at its place. -/
theorem isNew (h : StandsFirst labels place index) : IsNew labels index := by
  obtain ⟨label, -, hindex⟩ := h
  obtain ⟨⟨found, hfound, hsame⟩, hbefore⟩ := indexIn_eq_ok.1 hindex
  intro l hl l' hl'
  cases hl.symm.trans hfound
  refine Bool.eq_false_iff.2 fun hsame' => ?_
  exact Bool.eq_false_iff.1 (hbefore l' hl') (Text.sameName_trans hsame' hsame)

/-- **A column is found at its own place exactly when its label is new there.** -/
theorem eq_iff (h : StandsFirst labels place index) : index = place ↔ IsNew labels place := by
  constructor
  · rintro rfl
    exact h.isNew
  · intro hnew
    obtain ⟨label, hlabel, hindex⟩ := h
    obtain ⟨hat, hbefore⟩ := indexIn_eq_ok.1 hindex
    have hnew := hnew label hlabel
    have hplace := (List.getElem?_eq_some_iff.1 hlabel).1
    rcases Nat.lt_trichotomy index place with hlt | heq | hgt
    · -- what is found would be a column before the place with the label
      obtain ⟨l, hl, hsame⟩ := hat
      obtain ⟨hindex, rfl⟩ := List.getElem?_eq_some_iff.1 hl
      have hmem : labels[index] ∈ labels.take place :=
        List.mem_take_iff_getElem.2 ⟨index, by omega, rfl⟩
      exact absurd hsame (Bool.eq_false_iff.1 (hnew _ hmem))
    · exact heq
    · -- the column at the place is before the one that is found
      obtain ⟨hl', hget⟩ := List.getElem?_eq_some_iff.1 hlabel
      have hmem : label ∈ labels.take index :=
        List.mem_take_iff_getElem.2 ⟨place, by omega, hget⟩
      have hsame := hbefore label hmem
      rw [Text.sameName_refl] at hsame
      cases hsame

end StandsFirst

/-- Where all labels are different every label is new at its place. -/
theorem isNew_of_pairwise (h : labels.Pairwise fun a b => Text.sameName a b = false)
    (place : Nat) : IsNew labels place := by
  intro label hlabel l hl
  obtain ⟨hlt, rfl⟩ := List.getElem?_eq_some_iff.1 hlabel
  obtain ⟨j, hj, rfl⟩ := List.mem_take_iff_getElem.1 hl
  exact List.pairwise_iff_getElem.1 h j place (by omega) hlt (by omega)

end Cursor

/-! ### Labels of the select list, place by place -/

namespace Select

variable {s : Select} {labels : List String} {place : Nat}

/-- The items of the select list keep their places when they are numbered. -/
theorem exists_numbered {p : Projection} (h : s.projections.items[place]? = some p) :
    ∃ n, s.numbered[place]? = some n ∧ n.item = p := by
  rw [← map_item_number 0 0 s.projections.items, List.getElem?_map] at h
  exact Option.map_eq_some_iff.1 h

/-- The label of an item of the select list stands at its place. -/
theorem label_of_item {n : Numbered} {label : String} (hlabels : s.labels = labels.map some)
    (hn : s.numbered[place]? = some n) (h : n.item.label n.distinctAlias? = some label) :
    labels[place]? = some label := by
  have hget : s.labels[place]? = some (some label) := by
    have hlt : place < (s.numbered.map fun n => n.item.label n.distinctAlias?).length := by
      rw [List.length_map]
      exact (List.getElem?_eq_some_iff.1 hn).1
    rw [Select.labels, List.getElem?_append_left hlt, List.getElem?_map, hn, Option.map_some, h]
  rw [hlabels, List.getElem?_map, Option.map_eq_some_iff] at hget
  obtain ⟨l, hl, heq⟩ := hget
  cases heq
  exact hl

/-- The labels of the columns that are added stand behind those of the items. -/
theorem label_of_derived {d : DerivedProjection} {i : Nat} (hlabels : s.labels = labels.map some)
    (hd : s.derived[i]? = some d) :
    labels[s.projections.items.length + i]? = some d.label := by
  have hlength : (s.numbered.map fun n => n.item.label n.distinctAlias?).length =
      s.projections.items.length := by
    rw [List.length_map, numbered, number_length]
  have hget : s.labels[s.projections.items.length + i]? = some (some d.label) := by
    rw [Select.labels, ← hlength, List.getElem?_append_right (Nat.le_add_right ..),
      Nat.add_sub_cancel_left, List.getElem?_map, hd, Option.map_some]
  rw [hlabels, List.getElem?_map, Option.map_eq_some_iff] at hget
  obtain ⟨l, hl, heq⟩ := hget
  cases heq
  exact hl

end Select

/-! ### Aggregations -/

namespace AggregateColumn

variable {s : Select} {labels : List String}

/-- **All aggregations are found** by the labels that they have in the select list. -/
theorem exists_ofSelect (hlabels : ∀ label, some label ∈ s.labels → label ∈ labels) :
    ∃ columns, ofSelect s labels = .ok columns ∧
      List.Forall₂ (IsFor labels) s.aggregations columns := by
  refine Outcome.exists_mapM_eq_ok fun a ha => ?_
  obtain ⟨n, hn, ha⟩ := List.mem_filterMap.1 ha
  obtain ⟨hlabel, haverage⟩ := Select.Numbered.of_aggregation? ha
  refine exists_isFor (hlabels _ (Select.label_mem_labels hn hlabel)) fun p hp => ?_
  obtain ⟨hdistinct, ⟨d, hd, hcount⟩, d', hd', hsum⟩ := haverage p hp
  have hadded : ∀ d ∈ n.derived, d.label ∈ labels := fun d hd =>
    hlabels _ (Select.derived_label_mem_labels (Select.mem_derived_of_numbered hn hd))
  exact ⟨hcount ▸ hadded d hd, hsum ▸ hadded d' hd', hdistinct⟩

/-- The column of an aggregation is the first one with its label. -/
theorem indexIn_of_ofAggregation {a : Aggregation} {c : AggregateColumn}
    (h : ofAggregation labels a = .ok c) : Cursor.indexIn labels a.label = .ok c.index := by
  -- the label is looked up last, after those of the two columns of an average
  simp only [ofAggregation] at h
  split at h
  · obtain ⟨count, -, h⟩ := Outcome.bind_eq_ok.1 h
    obtain ⟨sum, -, h⟩ := Outcome.bind_eq_ok.1 h
    obtain ⟨average, -, h⟩ := Outcome.bind_eq_ok.1 h
    obtain ⟨index, hindex, h⟩ := Outcome.bind_eq_ok.1 h
    cases h
    exact hindex
  · obtain ⟨average, -, h⟩ := Outcome.bind_eq_ok.1 h
    obtain ⟨index, hindex, h⟩ := Outcome.bind_eq_ok.1 h
    cases h
    exact hindex

end AggregateColumn

end ShardedSql
