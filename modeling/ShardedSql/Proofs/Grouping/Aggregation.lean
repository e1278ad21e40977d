/-
**Aggregating what the shards aggregated is aggregating all rows.**

Rows with a key and with a number, or without one, are distributed over shards.  Each shard returns
a row for each key that it has, with counts, sums, least and greatest values of its numbers.
Grouping these rows by their keys and aggregating them again gives what a single shard with all rows
would return, whichever way the rows were distributed.

Main definitions:

* `ShardedSql.BaseRow` — a row before it is aggregated;
* `ShardedSql.Aggregates` — **some rows are what aggregating base rows gives**;
* `ShardedSql.Answers` — a cursor before the rows that a shard returns.

Main results:

* `ShardedSql.Group.foldlM_answers` — taking in the rows that the shards return for a key is taking
  in all numbers with it;
* `ShardedSql.MergedRows.holdGroups_aggregates` — **the groups of what the shards return are the
  aggregation of all rows**.
-/

import ShardedSql.Proofs.Accumulator
import ShardedSql.Proofs.Draining
import ShardedSql.Proofs.Grouping

set_option relaxedAutoImplicit false
set_option autoImplicit false

namespace ShardedSql

/-! ### Rows before they are aggregated -/

/-- A row before it is aggregated: its key, and its number unless it is null. -/
structure BaseRow where
  key : List Value
  measure : Option Int64
  deriving DecidableEq

namespace BaseRow

/-- The numbers of the rows with a key. -/
def measures (key : List Value) (base : List BaseRow) : List Int :=
  base.filterMap fun r => if r.key = key then r.measure.map (·.toInt) else none

theorem measures_append (key : List Value) (base base' : List BaseRow) :
    measures key (base ++ base') = measures key base ++ measures key base' :=
  List.filterMap_append

theorem measures_eq_nil {key : List Value} {base : List BaseRow} (h : ∀ r ∈ base, r.key ≠ key) :
    measures key base = [] :=
  List.filterMap_eq_nil_iff.2 fun r hr => if_neg (h r hr)

/-- The numbers of rows are words. -/
theorem fits_of_mem_measures {key : List Value} {base : List BaseRow} {n : Int}
    (h : n ∈ measures key base) : Signed.least ≤ n ∧ n ≤ Signed.greatest := by
  obtain ⟨r, -, hr⟩ := List.mem_filterMap.1 h
  split at hr
  · obtain ⟨w, -, rfl⟩ := Option.map_eq_some_iff.1 hr
    exact Signed.toInt_fits w
  · cases hr

/-- The count and the sum of the numbers with a key are words. -/
def Countable (key : List Value) (base : List BaseRow) : Prop :=
  (measures key base).length ≤ Signed.greatest ∧ Signed.least ≤ (measures key base).sum ∧
    (measures key base).sum ≤ Signed.greatest

/-- Then so is all that is taken from them. -/
theorem Countable.fits {key : List Value} {base : List BaseRow} (h : Countable key base)
    (kind : AggregationKind) :
    ∀ n ∈ kind.total (measures key base), Signed.least ≤ n ∧ n ≤ Signed.greatest := by
  obtain ⟨hcount, hleast, hgreatest⟩ := h
  intro n hn
  cases kind with
  | count =>
      cases hn
      simp only [Signed.least]
      omega
  | sum =>
      simp only [AggregationKind.total, Option.mem_def] at hn
      split at hn
      · cases hn
      · cases hn
        exact ⟨hleast, hgreatest⟩
  | min => exact fits_of_mem_measures (List.min?_eq_some_iff.1 hn).1
  | max => exact fits_of_mem_measures (List.max?_eq_some_iff.1 hn).1
  | avg => cases hn

end BaseRow

/-- A column with a count, a sum, a least or a greatest value of all values. -/
structure AggregateColumn.IsPlain (c : AggregateColumn) : Prop where
  kind : c.kind ≠ .avg
  distinct : c.distinct = false
  average : c.average = none

/-- A row with a key, and with what is taken from the numbers that have it. -/
structure Totals (groupColumns : List Nat) (columns : List AggregateColumn) (base : List BaseRow)
    (key : List Value) (row : Row) : Prop where
  keyed : groupKey groupColumns row = .ok key
  total : ∀ c ∈ columns, ∃ v, row[c.index]? = some v ∧
    v.Shows (c.kind.total (BaseRow.measures key base))

/-- Some rows are what aggregating base rows gives: one for each key, in the order of a list of
these. -/
structure Aggregates (groupColumns : List Nat) (columns : List AggregateColumn)
    (base : List BaseRow) (keys : List (List Value)) (rows : List Row) : Prop where
  nodup : keys.Nodup
  mem : ∀ key, key ∈ keys ↔ ∃ r ∈ base, r.key = key
  totals : List.Forall₂ (Totals groupColumns columns base) keys rows

/-- A cursor before the rows that a shard returns, in any order. -/
structure Answers (groupColumns : List Nat) (columns : List AggregateColumn) (shard : List BaseRow)
    (c : Cursor) : Prop where
  fresh : c = Cursor.ofRows c.labels c.rest
  wide : ∀ row ∈ c.rest, row.length = c.labels.length
  aggregates : ∃ keys, Aggregates groupColumns columns shard keys c.rest

namespace Group

open Accumulator (Keeps)
open BaseRow (measures Countable)

variable {groupColumns : List Nat} {columns : List AggregateColumn} {key : List Value}

/-! ### Taking in what a shard returns -/

/-- A row of a shard is taken in to each aggregation. -/
theorem mergeRow_spec {row : Row} {ns ns' : List Int} {tallies : List Accumulator}
    (hplain : ∀ c ∈ columns, c.IsPlain)
    (htallies : List.Forall₂ (fun c a => Keeps c.kind ns a) columns tallies)
    (hrow : ∀ c ∈ columns, ∃ v, row[c.index]? = some v ∧ v.Shows (c.kind.total ns'))
    (hfits : ∀ c ∈ columns, ∀ n ∈ c.kind.total (ns ++ ns'),
      Signed.least ≤ n ∧ n ≤ Signed.greatest) :
    ∃ tallies', mergeRow row columns tallies = .ok tallies' ∧
      List.Forall₂ (fun c a => Keeps c.kind (ns ++ ns') a) columns tallies' := by
  induction htallies with
  | nil => exact ⟨[], rfl, .nil⟩
  | @cons c a columns tallies hc _ ih =>
      obtain ⟨hcplain, hplain⟩ := List.forall_mem_cons.1 hplain
      obtain ⟨⟨v, hget, hv⟩, hrow⟩ := List.forall_mem_cons.1 hrow
      obtain ⟨hcfits, hfits⟩ := List.forall_mem_cons.1 hfits
      obtain ⟨a', hmerge, hkeeps⟩ := Accumulator.keeps_merge hcplain.kind hc hv hcfits
      obtain ⟨tallies', hrest, htallies'⟩ := ih hplain hrow hfits
      have hinputs : c.inputs row = .ok [v] := by
        simp only [AggregateColumn.inputs, AggregateColumn.sources, hcplain.average,
          List.mapM_cons, List.mapM_nil, hget]
        rfl
      refine ⟨a' :: tallies', ?_, .cons hkeeps htallies'⟩
      rw [mergeRow, hinputs]
      change ((a.merge [v]).1 >>= fun _ => mergeRow row columns tallies >>= fun rest =>
        pure ((a.merge [v]).2 :: rest)) = _
      rw [hmerge, hrest]
      rfl

/-- Rows with other keys are not of a key. -/
theorem filter_totals_eq_nil {shard : List BaseRow} {keys : List (List Value)} {rows : List Row}
    (h : List.Forall₂ (Totals groupColumns columns shard) keys rows) (hkey : key ∉ keys) :
    rows.filter (fun row => keyOf groupColumns row = key) = [] := by
  induction h with
  | nil => rfl
  | @cons k row keys rows hrow _ ih =>
      rw [List.mem_cons, not_or] at hkey
      have hk := (groupKey_eq_ok.1 hrow.keyed).2
      rw [List.filter_cons_of_neg (by simpa [← hk] using Ne.symm hkey.1), ih hkey.2]

/-- A shard returns one row of a key, or none when it does not have the key. -/
theorem filter_aggregates {shard : List BaseRow} {keys : List (List Value)} {rows : List Row}
    (h : Aggregates groupColumns columns shard keys rows) (key : List Value) :
    (rows.filter (fun row => keyOf groupColumns row = key) = [] ∧ measures key shard = []) ∨
      ∃ row, rows.filter (fun row => keyOf groupColumns row = key) = [row] ∧
        Totals groupColumns columns shard key row := by
  obtain ⟨hnodup, hmem, htotals⟩ := h
  by_cases hkey : key ∈ keys
  · right
    clear hmem
    induction htotals with
    | nil => cases hkey
    | @cons k row keys rows hrow hrest ih =>
        obtain ⟨hk, hnodup⟩ := List.nodup_cons.1 hnodup
        have hrowkey := (groupKey_eq_ok.1 hrow.keyed).2
        by_cases hsame : k = key
        · subst hsame
          refine ⟨row, ?_, hrow⟩
          rw [List.filter_cons_of_pos (by simpa using hrowkey.symm), filter_totals_eq_nil hrest hk]
        · rw [List.filter_cons_of_neg (by simpa [← hrowkey] using hsame)]
          exact ih hnodup ((List.mem_cons.1 hkey).resolve_left (Ne.symm hsame))
  · refine .inl ⟨filter_totals_eq_nil htotals hkey, BaseRow.measures_eq_nil fun r hr he => ?_⟩
    exact hkey ((hmem key).2 ⟨r, hr, he⟩)

/-- **Taking in the rows that the shards return for a key is taking in all numbers with it**, as
long as no count and no sum on the way is too large. -/
theorem foldlM_answers {shards : List (List BaseRow)} {cursors : List Cursor}
    (hplain : ∀ c ∈ columns, c.IsPlain)
    (h : List.Forall₂ (Answers groupColumns columns) shards cursors) (before : List BaseRow)
    (hrunning : ∀ n, Countable key (before ++ (shards.take n).flatten)) {g : Group}
    (hg : List.Forall₂ (fun c a => Keeps c.kind (measures key before) a) columns g.tallies) :
    ∃ g', ((cursors.map (·.rest)).flatten.filter fun row => keyOf groupColumns row = key).foldlM
        (fun g row => mergeInto columns row g) g = .ok g' ∧
      List.Forall₂ (fun c a => Keeps c.kind (measures key (before ++ shards.flatten)) a) columns
        g'.tallies := by
  induction h generalizing before g with
  | nil =>
      refine ⟨g, rfl, ?_⟩
      rwa [List.flatten_nil, List.append_nil]
  | @cons shard c shards cursors hc _ ih =>
      have hlater : ∀ n, Countable key ((before ++ shard) ++ (shards.take n).flatten) := by
        intro n
        have hn := hrunning (n + 1)
        rwa [List.take_succ_cons, List.flatten_cons, ← List.append_assoc] at hn
      have hnext : Countable key (before ++ shard) := by
        have hzero := hlater 0
        rwa [List.take_zero, List.flatten_nil, List.append_nil] at hzero
      rw [List.map_cons, List.flatten_cons, List.filter_append, List.foldlM_append,
        List.flatten_cons, ← List.append_assoc]
      obtain ⟨keys, haggregates⟩ := hc.aggregates
      rcases filter_aggregates haggregates key with ⟨hnone, hmeasures⟩ | ⟨row, hone, htotals⟩
      · rw [hnone]
        refine ih (before ++ shard) hlater ?_
        rwa [BaseRow.measures_append, hmeasures, List.append_nil]
      · have hfits := fun c (_ : c ∈ columns) => hnext.fits (AggregateColumn.kind c)
        rw [BaseRow.measures_append] at hfits
        obtain ⟨tallies, hmerge, htallies⟩ := mergeRow_spec hplain hg htotals.total hfits
        have hinto : mergeInto columns row g = .ok { g with tallies := tallies } := by
          rw [mergeInto, hmerge]
          rfl
        obtain ⟨g', hfold, hg'⟩ := ih (before ++ shard) hlater
          (g := { g with tallies := tallies }) (by rwa [BaseRow.measures_append])
        refine ⟨g', ?_, hg'⟩
        rw [hone, List.foldlM_cons, hinto]
        exact hfold

/-! ### The row of a group -/

/-- The row of a group has what is taken from the numbers that its aggregations have taken in. -/
theorem finish_keeps {ns : List Int} {g : Group}
    (h : List.Forall₂ (fun c a => Keeps c.kind ns a) columns g.tallies)
    (hnodup : (columns.map (·.index)).Nodup) (hwide : ∀ c ∈ columns, c.index < g.first.length) :
    ∃ row, g.finish columns = .ok row ∧
      ∀ c ∈ columns, ∃ v, row[c.index]? = some v ∧ v.Shows (c.kind.total ns) := by
  obtain ⟨key, first, tallies⟩ := g
  simp only at h hwide
  induction h generalizing first with
  | nil => exact ⟨first, rfl, fun c hc => absurd hc List.not_mem_nil⟩
  | @cons c a columns tallies hc _ ih =>
      obtain ⟨hnot, hnodup⟩ := List.nodup_cons.1 hnodup
      obtain ⟨hcwide, hwide⟩ := List.forall_mem_cons.1 hwide
      obtain ⟨v, hresult, hv⟩ := hc.result
      obtain ⟨row, hrow, hrest⟩ := ih hnodup (first.set c.index v)
        (by simpa only [List.length_set] using hwide)
      have hkeep := (finish_spec hrow).2 c.index fun d hd he =>
        hnot (List.mem_map.2 ⟨d, hd, he⟩)
      refine ⟨row, ?_, List.forall_mem_cons.2 ⟨⟨v, ?_, hv⟩, hrest⟩⟩
      · rw [finish_cons, hresult]
        exact hrow
      · rw [hkeep, List.getElem?_set_self hcwide]

/-- Without sort keys the groups stay in the order in which they came. -/
theorem sortKeyed_nil (rows : List Row) :
    sortKeyed [] (rows.map fun row => (SortKey.valuesOf [] row, row)) = rows := by
  have hsorted : (rows.map fun row => (SortKey.valuesOf [] row, row)).mergeSort
      (fun a b => (SortKey.orderRows [] a.1 b.1).isLE) =
      rows.map fun row => (SortKey.valuesOf [] row, row) :=
    List.mergeSort_of_pairwise (List.pairwise_of_forall fun _ _ => rfl)
  rw [sortKeyed, if_neg (by simp), hsorted, List.map_map]
  exact List.map_id rows

/-! ### All shards -/

section

variable {base : List BaseRow} {shards : List (List BaseRow)} {cursors : List Cursor}
  (hanswers : List.Forall₂ (Answers groupColumns columns) shards cursors)

include hanswers

/-- Every row that is returned is the row of a key of a shard. -/
theorem exists_totals_of_mem {row : Row} (hrow : row ∈ (cursors.map (·.rest)).flatten) :
    ∃ shard ∈ shards, ∃ r ∈ shard, Totals groupColumns columns shard r.key row := by
  obtain ⟨l, hl, hrowl⟩ := List.mem_flatten.1 hrow
  obtain ⟨c, hc, rfl⟩ := List.mem_map.1 hl
  obtain ⟨shard, hshard, hc⟩ := Lists.exists_of_forall₂ hanswers.flip hc
  obtain ⟨keys, haggregates⟩ := hc.aggregates
  obtain ⟨key, hkey, htotals⟩ := Lists.exists_of_forall₂ haggregates.totals.flip hrowl
  obtain ⟨r, hr, rfl⟩ := (haggregates.mem key).1 hkey
  exact ⟨shard, hshard, r, hr, htotals⟩

/-- The keys that are returned are those of the base rows. -/
theorem mem_keysOf_answers (hbase : base.Perm shards.flatten) (key : List Value) :
    key ∈ keysOf groupColumns (cursors.map (·.rest)).flatten ↔ ∃ r ∈ base, r.key = key := by
  rw [mem_keysOf]
  constructor
  · rintro ⟨row, hrow, rfl⟩
    obtain ⟨shard, hshard, r, hr, htotals⟩ := exists_totals_of_mem hanswers hrow
    exact ⟨r, hbase.mem_iff.2 (List.mem_flatten.2 ⟨shard, hshard, hr⟩),
      (groupKey_eq_ok.1 htotals.keyed).2⟩
  · rintro ⟨r, hr, rfl⟩
    obtain ⟨shard, hshard, hr⟩ := List.mem_flatten.1 (hbase.mem_iff.1 hr)
    obtain ⟨c, hc, hanswer⟩ := Lists.exists_of_forall₂ hanswers hshard
    obtain ⟨keys, haggregates⟩ := hanswer.aggregates
    obtain ⟨row, hrow, htotals⟩ :=
      Lists.exists_of_forall₂ haggregates.totals ((haggregates.mem r.key).2 ⟨r, hr, rfl⟩)
    exact ⟨row, List.mem_flatten.2 ⟨c.rest, List.mem_map_of_mem hc, hrow⟩,
      (groupKey_eq_ok.1 htotals.keyed).2.symm⟩

/-- The group of a key in the rows that the shards return has taken in all numbers with the key. -/
theorem atKey_answers (hplain : ∀ c ∈ columns, c.IsPlain)
    (hrunning : ∀ n, Countable key (shards.take n).flatten) :
    ∃ g, atKey groupColumns columns (cursors.map (·.rest)).flatten key = .ok g ∧
      List.Forall₂ (fun c a => Keeps c.kind (measures key shards.flatten) a) columns
        g.tallies := by
  rw [atKey, ofRun]
  refine foldlM_answers hplain hanswers [] hrunning ?_
  refine List.forall₂_map_right_iff.2 (List.forall₂_same.2 fun c hc => ?_)
  rw [AggregateColumn.start, (hplain c hc).distinct]
  exact Accumulator.keeps_start (hplain c hc).kind

/-- **The row of a key that the shards return has what is taken from all numbers with the key.** -/
theorem rowAt_answers (hplain : ∀ c ∈ columns, c.IsPlain) (hnodup : (columns.map (·.index)).Nodup)
    (haggregated : ∀ c ∈ columns, c.index ∉ groupColumns) (hbase : base.Perm shards.flatten)
    (hrunning : ∀ n, Countable key (shards.take n).flatten)
    (hkey : key ∈ keysOf groupColumns (cursors.map (·.rest)).flatten) :
    ∃ row, rowAt groupColumns columns (cursors.map (·.rest)).flatten key = .ok row ∧
      Totals groupColumns columns base key row := by
  obtain ⟨g, hg, htallies⟩ := atKey_answers hanswers hplain hrunning
  -- the first row of the group is one that a shard returns
  obtain ⟨hfirst, -⟩ := first_of_atKey hkey hg
  obtain ⟨shard, -, r, -, hreturned⟩ := exists_totals_of_mem hanswers hfirst
  have hwide : ∀ c ∈ columns, c.index < g.first.length := by
    intro c hc
    obtain ⟨v, hget, -⟩ := hreturned.total c hc
    exact (List.getElem?_eq_some_iff.1 hget).1
  obtain ⟨row, hrow, htotal⟩ := finish_keeps htallies hnodup hwide
  have hrowAt : rowAt groupColumns columns (cursors.map (·.rest)).flatten key = .ok row :=
    Outcome.bind_eq_ok.2 ⟨g, hg, hrow⟩
  have hkeyed : groupKey groupColumns row = .ok key := by
    refine groupKey_eq_ok.2 ⟨fun i hi => ?_, (keyOf_rowAt haggregated hkey hrowAt).symm⟩
    rw [(finish_spec hrow).1]
    exact (groupKey_eq_ok.1 hreturned.keyed).1 i hi
  refine ⟨row, hrowAt, hkeyed, fun c hc => ?_⟩
  have hmeasures : (measures key base).Perm (measures key shards.flatten) := hbase.filterMap _
  rw [AggregationKind.total_perm c.kind hmeasures]
  exact htotal c hc

end

end Group

namespace MergedRows

/-- **The groups of what the shards return are the aggregation of all rows**, with the keys in the
order in which they come first, however the rows are distributed over the shards. -/
theorem holdGroups_aggregates {groupColumns : List Nat} {columns : List AggregateColumn}
    {base : List BaseRow} {shards : List (List BaseRow)} {cursors : List Cursor}
    (hplain : ∀ c ∈ columns, c.IsPlain) (hnodup : (columns.map (·.index)).Nodup)
    (haggregated : ∀ c ∈ columns, c.index ∉ groupColumns)
    (hbase : base.Perm shards.flatten)
    (hanswers : List.Forall₂ (Answers groupColumns columns) shards cursors)
    (hrunning : ∀ key n, BaseRow.Countable key (shards.take n).flatten) :
    ∃ held rows, holdGroups [] groupColumns columns cursors = .ok held ∧ held.Yields rows ∧
      Aggregates groupColumns columns base
        (Group.keysOf groupColumns (cursors.map (·.rest)).flatten) rows := by
  have hplan : ∀ c ∈ cursors, c.plan = .none := by
    intro c hc
    obtain ⟨shard, -, hanswer⟩ := Lists.exists_of_forall₂ hanswers.flip hc
    exact Cursor.plan_of_eq_ofRows hanswer.fresh
  have hwide : ∀ c ∈ cursors, ∀ row ∈ c.rest, row.length = c.labels.length := by
    intro c hc
    obtain ⟨shard, -, hanswer⟩ := Lists.exists_of_forall₂ hanswers.flip hc
    exact hanswer.wide
  obtain ⟨rows, hrows, htotals⟩ := Outcome.exists_mapM_eq_ok fun key hkey =>
    Group.rowAt_answers hanswers hplain hnodup haggregated hbase (hrunning key) hkey
  have hread : ∀ row ∈ (cursors.map (·.rest)).flatten, ∀ i ∈ groupColumns, i < row.length := by
    intro row hrow
    obtain ⟨shard, -, r, -, htotals⟩ := Group.exists_totals_of_mem hanswers hrow
    exact (Group.groupKey_eq_ok.1 htotals.keyed).1
  have hout : (Group.ofCursors groupColumns [] columns cursors).1 = .ok rows :=
    (Group.ofCursors_eq_ok hplan hwide).2 ⟨hread, rows, hrows,
      fun _ _ k hk => absurd hk List.not_mem_nil, Group.sortKeyed_nil rows⟩
  exact ⟨_, rows, holdGroups_eq_ok.2 ⟨rows, hout, rfl⟩, yields_held rows none _,
    Group.nodup_keysOf _ _, Group.mem_keysOf_answers hanswers hbase, htotals⟩

/-- Two shards with one key, of which the second has no number. -/
theorem holdGroups_aggregates_null :
    ∃ held rows, holdGroups [] [0] [{ kind := .count, index := 1 }, { kind := .sum, index := 2 },
        { kind := .min, index := 3 }, { kind := .max, index := 4 }]
      [.ofRows ["k", "c", "s", "l", "g"] [[.int 7, .int 2, .int 3, .int (-2), .int 5]],
        .ofRows ["k", "c", "s", "l", "g"] [[.int 7, .int 0, .null, .null, .null]]] = .ok held ∧
      held.Yields rows ∧
      Aggregates [0] [{ kind := .count, index := 1 }, { kind := .sum, index := 2 },
        { kind := .min, index := 3 }, { kind := .max, index := 4 }]
        [⟨[.int 7], none⟩, ⟨[.int 7], some 5⟩, ⟨[.int 7], some (-2)⟩] [[.int 7]] rows := by
  have hcolumns : ∀ (v₁ v₂ v₃ v₄ : Value) (base : List BaseRow),
      v₁.Shows (some (BaseRow.measures [.int 7] base).length) →
      v₂.Shows (AggregationKind.total .sum (BaseRow.measures [.int 7] base)) →
      v₃.Shows (BaseRow.measures [.int 7] base).min? →
      v₄.Shows (BaseRow.measures [.int 7] base).max? →
      Totals [0] [{ kind := .count, index := 1 }, { kind := .sum, index := 2 },
        { kind := .min, index := 3 }, { kind := .max, index := 4 }] base [.int 7]
        [.int 7, v₁, v₂, v₃, v₄] := by
    intro v₁ v₂ v₃ v₄ base h₁ h₂ h₃ h₄
    refine ⟨rfl, ?_⟩
    simp only [List.forall_mem_cons]
    exact ⟨⟨v₁, rfl, h₁⟩, ⟨v₂, rfl, h₂⟩, ⟨v₃, rfl, h₃⟩, ⟨v₄, rfl, h₄⟩,
      fun _ hc => absurd hc List.not_mem_nil⟩
  have hplain : ∀ c ∈ [({ kind := .count, index := 1 } : AggregateColumn),
      { kind := .sum, index := 2 }, { kind := .min, index := 3 }, { kind := .max, index := 4 }],
      c.IsPlain := by
    simp only [List.forall_mem_cons]
    exact ⟨⟨by decide, rfl, rfl⟩, ⟨by decide, rfl, rfl⟩, ⟨by decide, rfl, rfl⟩,
      ⟨by decide, rfl, rfl⟩, fun _ hc => absurd hc List.not_mem_nil⟩
  have hanswers : List.Forall₂ (Answers [0] [{ kind := .count, index := 1 },
      { kind := .sum, index := 2 }, { kind := .min, index := 3 }, { kind := .max, index := 4 }])
      [[⟨[.int 7], some 5⟩, ⟨[.int 7], some (-2)⟩], [⟨[.int 7], none⟩]]
      [.ofRows ["k", "c", "s", "l", "g"] [[.int 7, .int 2, .int 3, .int (-2), .int 5]],
        .ofRows ["k", "c", "s", "l", "g"] [[.int 7, .int 0, .null, .null, .null]]] := by
    refine .cons ⟨rfl, by decide, [[.int 7]], by decide, by simp [eq_comm], .cons ?_ .nil⟩
      (.cons ⟨rfl, by decide, [[.int 7]], by decide, by simp [eq_comm], .cons ?_ .nil⟩ .nil)
    · exact hcolumns _ _ _ _ _ ⟨_, rfl, by decide⟩ ⟨_, rfl, by decide⟩ ⟨_, rfl, by decide⟩
        ⟨_, rfl, by decide⟩
    · exact hcolumns _ _ _ _ _ ⟨_, rfl, by decide⟩ rfl rfl rfl
  refine holdGroups_aggregates hplain (by decide) (by decide) (by decide) hanswers fun key n => ?_
  rcases n with _ | _ | n <;> by_cases h : [Value.int 7] = key <;>
    simp [BaseRow.Countable, BaseRow.measures, h] <;> decide

end MergedRows

end ShardedSql
