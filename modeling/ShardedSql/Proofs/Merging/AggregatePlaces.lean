/-
**Aggregations in their own columns.**

What is aggregated is merged into the column that is found by its label.  One would like this to be
the column of the aggregation itself, so that no column of a merged row is left with what a single
shard has aggregated.  That fails for a select list with a label in it twice, as in
`SELECT COUNT(*), COUNT(*)`, or when an alias repeats the name of a column before it: both
aggregations are merged into the first of the columns, and the other one is left as the first row
of the group has it.

It holds wherever the label is new at the place of each aggregation, and only there.

Main definitions:

* `ShardedSql.Select.aggregationPlaces` — the places of the aggregations in the select list;
* `ShardedSql.Select.IsReturned` — rows that shards return so that they can be merged;
* `ShardedSql.Select.IsMergedFrom` — **what the row of a group has in these places**.

Main results:

* `ShardedSql.Select.aggregations_standFirst` — every aggregation is found in the first column with
  its label;
* `ShardedSql.MergedRows.exists_offers` — the rows of a merge are those of groups;
* `ShardedSql.Select.aggregations_in_place` — **aggregations are merged in their own columns exactly
  when their labels are new, and a column whose label is not new is left as it was**.
-/

import ShardedSql.Proofs.Grouping.Pushdown
import ShardedSql.Proofs.Grouping.Tallies
import ShardedSql.Proofs.Merging.Places

set_option relaxedAutoImplicit false
set_option autoImplicit false

namespace ShardedSql

open Cursor (IsNew StandsFirst)

/-! ### Places -/

namespace Projection

/-- The item is an aggregation. -/
def isAggregation : Projection → Bool
  | .aggregation .. => true
  | _ => false

end Projection

namespace Select

variable {s : Select} {labels : List String}

/-- The places of the aggregations in the select list. -/
def aggregationPlaces (s : Select) : List Nat :=
  (s.projections.items.zipIdx.filter fun p => p.1.isAggregation).map (·.2)

theorem nodup_aggregationPlaces (s : Select) : s.aggregationPlaces.Nodup := by
  have hsub := (List.filter_sublist (p := fun p => p.1.isAggregation)
    (l := s.projections.items.zipIdx)).map (·.2)
  rw [List.zipIdx_map_snd] at hsub
  exact List.Nodup.sublist hsub List.nodup_range'

/-- What has to be aggregated is an aggregation of the select list. -/
theorem Numbered.isSome_aggregation? (n : Numbered) :
    n.aggregation?.isSome = n.item.isAggregation := by
  obtain ⟨item, averages, distincts⟩ := n
  cases item with
  | aggregation kind distinct text inner alias? start stop =>
      cases distinct
      · cases kind <;> rfl
      · rfl
  | _ => rfl

/-- What has to be aggregated stands in the places of the aggregations. -/
theorem aggregations_at_places (s : Select) :
    List.Forall₂ (fun a place => ∃ n, s.numbered[place]? = some n ∧ n.aggregation? = some a)
      s.aggregations s.aggregationPlaces := by
  have hplaces : s.aggregationPlaces =
      (s.numbered.zipIdx.filter fun p => p.1.aggregation?.isSome).map (·.2) := by
    rw [aggregationPlaces, ← map_item_number 0 0 s.projections.items, ← numbered,
      List.zipIdx_map, List.filter_map, List.map_map]
    simp only [Numbered.isSome_aggregation?]
    rfl
  rw [hplaces]
  exact Lists.forall₂_filterMap_zipIdx Numbered.aggregation? s.numbered

/-- **Every aggregation is found in the first column with its label.** -/
theorem aggregations_standFirst (hlabels : s.labels = labels.map some) :
    ∃ columns, AggregateColumn.ofSelect s labels = .ok columns ∧
      List.Forall₂ (fun c place => StandsFirst labels place c.index) columns
        s.aggregationPlaces := by
  obtain ⟨columns, hcolumns, -⟩ := AggregateColumn.exists_ofSelect fun label h =>
    mem_of_mem_labels hlabels h
  refine ⟨columns, hcolumns, Lists.forall₂_of_forall₂ (Outcome.mapM_eq_ok.1 hcolumns)
    s.aggregations_at_places ?_⟩
  rintro a c place hc ⟨n, hn, ha⟩
  have hlabel := label_of_item hlabels hn (Numbered.of_aggregation? ha).1
  exact ⟨a.label, hlabel, AggregateColumn.indexIn_of_ofAggregation hc⟩

/-- Columns that stand first are their own places when all labels are new there, and only then. -/
theorem map_index_eq_iff {columns : List AggregateColumn} {places : List Nat}
    (h : List.Forall₂ (fun c place => StandsFirst labels place c.index) columns places) :
    columns.map (·.index) = places ↔ ∀ place ∈ places, IsNew labels place := by
  induction h with
  | nil => exact ⟨fun _ place hplace => absurd hplace List.not_mem_nil, fun _ => rfl⟩
  | cons hfirst _ ih => rw [List.map_cons, List.cons.injEq, hfirst.eq_iff, ih, List.forall_mem_cons]

end Select

/-! ### Rows of groups -/

namespace Select

/-- Rows that shards return so that they can be merged.  They are as wide as the labels, and when
groups are made while the rows are read then they are in the order of the groups. -/
structure IsReturned (s : Select) (labels : List String) (keys groupKeys : List SortKey)
    (cursors : List Cursor) : Prop where
  fresh : ∀ c ∈ cursors, c = Cursor.ofRows labels c.rest
  wide : ∀ c ∈ cursors, ∀ row ∈ c.rest, row.length = labels.length
  ordered : s.groupsAreOrdered = true → groupKeys.map (·.index) = keys.map (·.index) ∧
    CursorQueue.Mergeable keys (cursors.map (·.rest))

/-- What the row of a group has in the places of the aggregations: what is aggregated over the rows
of the group, when every label is new at its place.  A place whose label is not new is as the first
row of the group has it. -/
structure IsMergedFrom (s : Select) (labels : List String) (columns : List AggregateColumn)
    (rows : List Row) (row : Row) : Prop where
  merged : (∀ place ∈ s.aggregationPlaces, IsNew labels place) →
    List.Forall₂ (fun c place => ∃ v, c.aggregate rows = .ok v ∧ row[place]? = some v) columns
      s.aggregationPlaces
  left : ∀ place ∈ s.aggregationPlaces, ¬ IsNew labels place →
    row[place]? = (rows.headD [])[place]?

end Select

namespace MergedRows

open ShardedSql.Group (keysOf rowAt)

variable {s : Select} {labels : List String} {keys groupKeys : List SortKey}
  {columns : List AggregateColumn} {cursors : List Cursor} {m : MergedRows}

/-- **The rows of a merge are those of groups.** -/
theorem exists_offers (hcolumns : AggregateColumn.ofSelect s labels = .ok columns)
    (hgroupKeys : SortKey.ofItems s labels s.groupBy = .ok groupKeys)
    (hreturned : s.IsReturned labels keys groupKeys cursors)
    (hmerge : group s labels keys cursors = .ok m) :
    ∃ outs, m.Offers outs ∧ ∀ row, .ok row ∈ outs →
      ∃ key ∈ keysOf (groupKeys.map (·.index)) (cursors.map (·.rest)).flatten,
        rowAt (groupKeys.map (·.index)) columns (cursors.map (·.rest)).flatten key = .ok row := by
  have hfresh : ∀ c ∈ cursors, c = Cursor.ofRows c.labels c.rest := by
    intro c hc
    have hofRows := hreturned.fresh c hc
    have hsame : c.labels = labels := congrArg Cursor.labels hofRows
    rwa [← hsame] at hofRows
  have hwide : ∀ c ∈ cursors, ∀ row ∈ c.rest, row.length = c.labels.length := by
    intro c hc row hrow
    rw [hreturned.wide c hc row hrow, hreturned.fresh c hc]
    rfl
  have hgroup : group s labels keys cursors =
      if s.groupsAreOrdered then streamGroups keys (groupKeys.map (·.index)) columns cursors
      else holdGroups keys (groupKeys.map (·.index)) columns cursors := by
    rw [group, hcolumns, hgroupKeys]
    rfl
  rw [hgroup] at hmerge
  split at hmerge
  · rename_i hordered
    obtain ⟨hsame, hm⟩ := hreturned.ordered hordered
    obtain ⟨stream, hstream, hoffers⟩ := streamGroups_offers columns hfresh hwide hm
    rw [hsame, hstream, Except.ok.injEq] at hmerge
    subst hmerge
    refine ⟨_, hoffers, fun row hrow => ?_⟩
    obtain ⟨key, hkey, hrowAt⟩ := List.mem_map.1 hrow
    rw [hsame]
    exact ⟨key, Group.mem_keysOf.2 (Group.mem_orderedKeys.1 hkey), hrowAt⟩
  · obtain ⟨rows, hrows, rfl⟩ := holdGroups_eq_ok.1 hmerge
    have hplan : ∀ c ∈ cursors, c.plan = .none := fun c hc =>
      Cursor.plan_of_eq_ofRows (hfresh c hc)
    obtain ⟨-, made, hmade, -, rfl⟩ := (Group.ofCursors_eq_ok hplan hwide).1 hrows
    refine ⟨_, yields_held _ none _, fun row hrow => ?_⟩
    obtain ⟨row', hrow', heq⟩ := List.mem_map.1 hrow
    cases heq
    have hmem := (Group.sortKeyed_perm _ _).mem_iff.1 hrow'
    rw [List.map_map, List.map_id'' (by simp)] at hmem
    exact Outcome.exists_of_mem_right hmade hmem

end MergedRows

namespace Select

variable {s : Select} {labels : List String}

/-- The row of the group of a key has the aggregations in their places. -/
theorem isMergedFrom_rowAt {columns : List AggregateColumn} {groupColumns : List Nat}
    {rows : List Row} {key : List Value} {row : Row}
    (hfirst : List.Forall₂ (fun c place => StandsFirst labels place c.index) columns
      s.aggregationPlaces)
    (hwide : ∀ r ∈ rows, r.length = labels.length) (hkey : key ∈ Group.keysOf groupColumns rows)
    (h : Group.rowAt groupColumns columns rows key = .ok row) :
    s.IsMergedFrom labels columns (rows.filter fun r => Group.keyOf groupColumns r = key) row := by
  have hcolumn : ∀ c ∈ columns, ∃ place ∈ s.aggregationPlaces, StandsFirst labels place c.index :=
    fun c hc => Lists.exists_of_forall₂ hfirst hc
  constructor
  · intro hnew
    have hplaces := (map_index_eq_iff hfirst).2 hnew
    have hnodup : (columns.map (·.index)).Nodup := hplaces ▸ s.nodup_aggregationPlaces
    rw [← hplaces, List.forall₂_map_right_iff, List.forall₂_same]
    refine Group.aggregate_of_rowAt hnodup (fun r hr c hc => ?_) hkey h
    obtain ⟨place, -, hstands⟩ := hcolumn c hc
    obtain ⟨label, -, hat⟩ := hstands.isAt
    rw [hwide r hr]
    exact hat.lt_length
  · intro place _ hrepeated
    -- no aggregation is found at the place, as what is found has a new label
    have hnone : ∀ c ∈ columns, c.index ≠ place := by
      rintro c hc rfl
      obtain ⟨place', -, hstands⟩ := hcolumn c hc
      exact hrepeated hstands.isNew
    obtain ⟨g, hg, hfinish⟩ := Outcome.bind_eq_ok.1 h
    rw [(Group.finish_spec hfinish).2 place hnone, (Group.ofRun_spec hg).2]

/-- **Aggregations are merged in their own columns exactly when their labels are new**, where not
all columns are selected and a cursor has the labels of the select list.  Every aggregation is found
in the first column with its label.  Then a row of the merge has in the place of every aggregation
what is aggregated over all rows of its group; a place whose label is not new is left as the first
row of the group has it. -/
theorem aggregations_in_place (hlabels : s.labels = labels.map some)
    (haggregation : s.hasAggregation = true) :
    ∃ columns, AggregateColumn.ofSelect s labels = .ok columns ∧
      List.Forall₂ (fun c place => StandsFirst labels place c.index) columns
        s.aggregationPlaces ∧
      (columns.map (·.index) = s.aggregationPlaces ↔
        ∀ place ∈ s.aggregationPlaces, IsNew labels place) ∧
      ∀ keys groupKeys cursors m, SortKey.ofItems s labels s.order = .ok keys →
        SortKey.ofItems s labels s.groupBy = .ok groupKeys →
        s.IsReturned labels keys groupKeys cursors →
        MergedRows.ofCursors s labels cursors = .ok m →
        ∃ outs, m.Offers outs ∧ ∀ row, .ok row ∈ outs →
          ∃ key ∈ Group.keysOf (groupKeys.map (·.index)) (cursors.map (·.rest)).flatten,
            s.IsMergedFrom labels columns ((cursors.map (·.rest)).flatten.filter fun r =>
              Group.keyOf (groupKeys.map (·.index)) r = key) row := by
  obtain ⟨columns, hcolumns, hfirst⟩ := aggregations_standFirst hlabels
  refine ⟨columns, hcolumns, hfirst, map_index_eq_iff hfirst, ?_⟩
  intro keys groupKeys cursors m hkeys hgroupKeys hreturned hmerge
  have hofCursors : MergedRows.ofCursors s labels cursors =
      MergedRows.group s labels keys cursors := by
    simp only [MergedRows.ofCursors, hkeys, haggregation, Bool.or_true, if_true]
    rfl
  rw [hofCursors] at hmerge
  obtain ⟨outs, hoffers, hrows⟩ :=
    MergedRows.exists_offers hcolumns hgroupKeys hreturned hmerge
  refine ⟨outs, hoffers, fun row hrow => ?_⟩
  obtain ⟨key, hkey, hrowAt⟩ := hrows row hrow
  refine ⟨key, hkey, isMergedFrom_rowAt hfirst (fun r hr => ?_) hkey hrowAt⟩
  obtain ⟨l, hl, hr⟩ := List.mem_flatten.1 hr
  obtain ⟨c, hc, rfl⟩ := List.mem_map.1 hl
  exact hreturned.wide c hc r hr

/-- The number of orders and the sum of their prices in each region. -/
def salesByRegion : Select where
  tables := [.ofName "t_order" 42]
  projections := { items := [.ofColumn "region" 7,
    .ofAggregation .count false "*" "COUNT(*)" 15,
    .ofAggregation .sum false "price" "SUM(price)" 25] }
  groupBy := [.asc "region"]

/-- The labels of the columns that a shard returns. -/
def salesLabels : List String := ["region", "COUNT(*)", "SUM(price)"]

/-- What two shards return: both have orders in the first region, and one has orders in the
second. -/
def salesCursors : List Cursor :=
  [.ofRows salesLabels [[.int 1, .int 2, .int 20]],
    .ofRows salesLabels [[.int 1, .int 3, .int 50], [.int 2, .int 1, .int 5]]]

/-- Every row of the merge has both aggregations in their own columns: those of the first region
over both shards, and those of the second region. -/
theorem aggregations_in_place_sales :
    ∃ m outs, MergedRows.ofCursors salesByRegion salesLabels salesCursors = .ok m ∧
      m.Offers outs ∧ ∀ row, .ok row ∈ outs →
        (row[1]? = some (.int 5) ∧ row[2]? = some (.int 70)) ∨
          row[1]? = some (.int 1) ∧ row[2]? = some (.int 5) := by
  have hlabels : salesByRegion.labels = salesLabels.map some := by decide +kernel
  have hkeys : SortKey.ofItems salesByRegion salesLabels salesByRegion.order =
      .ok [⟨0, .asc, none⟩] := by decide +kernel
  have hgroupKeys : SortKey.ofItems salesByRegion salesLabels salesByRegion.groupBy =
      .ok [⟨0, .asc, none⟩] := by decide +kernel
  have hm : CursorQueue.Mergeable [⟨0, .asc, none⟩] (salesCursors.map (·.rest)) :=
    { sorted := by decide, wide := by decide, unmixed := by unfold SortKey.Unmixed; decide }
  have hreturned : salesByRegion.IsReturned salesLabels [⟨0, .asc, none⟩] [⟨0, .asc, none⟩]
      salesCursors :=
    { fresh := by simp [salesCursors, Cursor.ofRows]
      wide := by decide
      ordered := fun _ => ⟨rfl, hm⟩ }
  obtain ⟨columns, hcolumns, -, -, hrows⟩ := aggregations_in_place hlabels (by decide)
  have hcolumns' : AggregateColumn.ofSelect salesByRegion salesLabels =
      .ok [⟨.count, false, 1, none⟩, ⟨.sum, false, 2, none⟩] := by decide +kernel
  cases hcolumns.symm.trans hcolumns'
  have hofCursors := MergedRows.ofCursors_of_groupsAreOrdered (by decide +kernel) hkeys hgroupKeys
    hcolumns salesCursors
  obtain ⟨m, hstream, -⟩ := MergedRows.streamGroups_offers
    [⟨.count, false, 1, none⟩, ⟨.sum, false, 2, none⟩] (by simp [salesCursors, Cursor.ofRows])
    (by decide) hm
  obtain ⟨outs, hoffers, hmerged⟩ :=
    hrows _ _ salesCursors m hkeys hgroupKeys hreturned (hofCursors.trans hstream)
  refine ⟨m, outs, hofCursors.trans hstream, hoffers, fun row hrow => ?_⟩
  obtain ⟨key, hkey, hfrom⟩ := hmerged row hrow
  have hplaces : salesByRegion.aggregationPlaces = [1, 2] := by decide
  have hnew : ∀ place ∈ salesByRegion.aggregationPlaces, IsNew salesLabels place := fun place _ =>
    Cursor.isNew_of_pairwise (by decide +kernel) place
  have hkeysOf : Group.keysOf [0] (salesCursors.map (·.rest)).flatten = [[.int 1], [.int 2]] := by
    decide
  have hin := hfrom.merged hnew
  rw [hplaces] at hin
  cases hin with
  | cons hcount hin =>
      cases hin with
      | cons hsum hin =>
          obtain ⟨n, hn, hrow₁⟩ := hcount
          obtain ⟨total, htotal, hrow₂⟩ := hsum
          have hkey' : key ∈ [[Value.int 1], [Value.int 2]] := hkeysOf ▸ hkey
          rw [List.mem_cons, List.mem_singleton] at hkey'
          rcases hkey' with rfl | rfl
          · cases hn
            cases htotal
            exact .inl ⟨hrow₁, hrow₂⟩
          · cases hn
            cases htotal
            exact .inr ⟨hrow₁, hrow₂⟩

/-- The number of orders, asked for twice. -/
def twoCounts : Select where
  tables := [.ofName "t_order" 31]
  projections := { items := [.ofAggregation .count false "*" "COUNT(*)" 7,
    .ofAggregation .count false "*" "COUNT(*)" 17] }

/-- The labels of the columns that a shard returns. -/
def twoCountsLabels : List String := ["COUNT(*)", "COUNT(*)"]

/-- Both counts are found in the first column, and the second column of the merge is left with the
count of the first shard. -/
theorem aggregations_of_twoCounts :
    twoCounts.labels = twoCountsLabels.map some ∧ twoCounts.aggregationPlaces = [0, 1] ∧
      AggregateColumn.ofSelect twoCounts twoCountsLabels =
        .ok [⟨.count, false, 0, none⟩, ⟨.count, false, 0, none⟩] ∧
      ∃ m, MergedRows.ofCursors twoCounts twoCountsLabels
          [.ofRows twoCountsLabels [[.int 2, .int 2]],
            .ofRows twoCountsLabels [[.int 3, .int 3]]] = .ok m ∧
        m.Yields [[.int 5, .int 2]] := by
  have hcolumns : AggregateColumn.ofSelect twoCounts twoCountsLabels =
      .ok [⟨.count, false, 0, none⟩, ⟨.count, false, 0, none⟩] := by decide +kernel
  refine ⟨by decide +kernel, by decide, hcolumns, ?_⟩
  have hheld := MergedRows.holdGroups_eq_ok.2 ⟨[[.int 5, .int 2]], (by decide +kernel :
    (Group.ofCursors [] [] [⟨.count, false, 0, none⟩, ⟨.count, false, 0, none⟩]
      [.ofRows twoCountsLabels [[.int 2, .int 2]],
        .ofRows twoCountsLabels [[.int 3, .int 3]]]).1 = .ok [[.int 5, .int 2]]), rfl⟩
  have hmerge : ∀ cursors, MergedRows.ofCursors twoCounts twoCountsLabels cursors =
      MergedRows.holdGroups [] [] [⟨.count, false, 0, none⟩, ⟨.count, false, 0, none⟩]
        cursors := by
    intro cursors
    have hgroup : MergedRows.ofCursors twoCounts twoCountsLabels cursors =
        MergedRows.group twoCounts twoCountsLabels [] cursors := rfl
    rw [hgroup, MergedRows.group, hcolumns]
    rfl
  exact ⟨_, (hmerge _).trans hheld, MergedRows.yields_held _ none _⟩

end Select

end ShardedSql
