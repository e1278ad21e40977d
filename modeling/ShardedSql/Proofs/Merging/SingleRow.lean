/-
**Aggregations without groups.**

A statement that aggregates without groups has one row, whatever it aggregates: the count of nothing
is zero.  One would like its merge to have one row as well.  That fails when the condition routes it
nowhere, as `WHERE order_id = 1 AND order_id = 2` may do.  Then there are no cursors, and the merge
of no cursors is empty before its aggregations are looked at.

With cursors there is one row: that of the only cursor, or that of the only group of the rows of
several.  Making it does not fail as long as what is added up are numbers, as each aggregate
function then stays in a state in which it can go on.

Main definitions:

* `ShardedSql.Value.IsSummand` — values that can be added up;
* `ShardedSql.AggregateColumn.CanAdd` — rows with such values where an aggregation adds them up;
* `ShardedSql.AggregateColumn.IsSound` — **aggregations in progress that can go on**;
* `ShardedSql.Select.ReturnsOne` — cursors that hold one row of a statement;
* `ShardedSql.Merged.Gives` — the rows of a merged result, before their columns are decrypted.

Main results:

* `ShardedSql.AggregateColumn.exists_takeIn`, `ShardedSql.AggregateColumn.exists_result` — **a sound
  aggregation takes a row in, stays sound and has an outcome**;
* `ShardedSql.Group.exists_rowAt` — so a group has a row;
* `ShardedSql.Merged.single_row_spec` — **an aggregation without groups has one row if there are
  cursors, and none if there are not**.
-/

import ShardedSql.Proofs.Draining
import ShardedSql.Proofs.Grouping.Aggregation
import ShardedSql.Proofs.Grouping.Tallies
import ShardedSql.Proofs.Merging.Places

set_option relaxedAutoImplicit false
set_option autoImplicit false

namespace ShardedSql

/-! ### Values that are added up -/

/-- A value that can be added up: null, which is passed over, or one that stands for a number. -/
def Value.IsSummand (v : Value) : Prop := v.isNull = true ∨ v.StandsForNumber

/-- What is not null is a number. -/
theorem Value.StandsForNumber.isNull {v : Value} (h : v.StandsForNumber) : v.isNull = false := by
  cases v with
  | null =>
      obtain ⟨x, hx⟩ := h
      cases hx
  | _ => rfl

namespace Accumulator

variable {total : Option Value} {v : Value}

/-- A sum so far to which numbers can be added. -/
def IsTotal (total : Option Value) : Prop := ∀ t ∈ total, t.StandsForNumber

theorem isTotal_none : IsTotal none := fun _ h => by cases h

theorem isTotal_some (h : v.StandsForNumber) : IsTotal (some v) := fun t ht => by
  cases ht
  exact h

/-- A number is added to a sum. -/
theorem exists_addTo (htotal : IsTotal total) (hv : v.IsSummand) :
    ∃ total', addTo total v = .ok total' ∧ IsTotal total' := by
  cases hnull : v.isNull with
  | true => exact ⟨total, if_pos hnull, htotal⟩
  | false =>
      have hnumber : v.StandsForNumber :=
        hv.resolve_left (by rw [hnull]; exact Bool.false_ne_true)
      cases total with
      | none =>
          refine ⟨some v, ?_, isTotal_some hnumber⟩
          unfold addTo
          rw [if_neg (by rw [hnull]; exact Bool.false_ne_true)]
      | some t =>
          obtain ⟨sum, hsum⟩ := exists_addTo_some hnull (htotal t rfl) hnumber
          obtain ⟨-, -, _, hsome, hsums⟩ := addTo_some_eq_ok hnull hsum
          cases hsome
          exact ⟨some sum, hsum, isTotal_some hsums⟩

/-- Numbers are added to a sum one after another. -/
theorem exists_foldlM_summands {vs : List Value} (htotal : IsTotal total)
    (hvs : ∀ v ∈ vs, v.IsSummand) :
    ∃ total', vs.foldlM addTo total = .ok total' ∧ IsTotal total' :=
  Outcome.exists_foldlM_eq_ok (fun _ hso v hv => exists_addTo hso (hvs v hv)) htotal

theorem exists_divide {sum count : Value} (hsum : sum.StandsForNumber)
    (hcount : count.StandsForNumber) : ∃ v, divide sum count = .ok v := by
  obtain ⟨total, htotal⟩ := hsum
  obtain ⟨n, hn⟩ := hcount
  unfold divide
  rw [hn, htotal]
  simp only [bind, Except.bind]
  split
  · exact ⟨_, rfl⟩
  · exact ⟨_, rfl⟩

/-- Different numbers have an outcome, whatever is made of them. -/
theorem exists_ofDistinct (kind : AggregationKind) {seen : List Value}
    (hseen : ∀ v ∈ seen, v.StandsForNumber) : ∃ v, ofDistinct kind seen = .ok v := by
  obtain ⟨total, htotal, hnumber⟩ :=
    exists_foldlM_summands isTotal_none fun v hv => .inr (hseen v hv)
  have hcount : (Value.int (Int64.ofNat seen.length)).StandsForNumber := ⟨_, rfl⟩
  unfold ofDistinct
  rw [htotal]
  simp only [bind, Except.bind]
  split
  · exact ⟨_, rfl⟩
  · exact exists_divide (hnumber _ rfl) hcount
  · exact ⟨_, rfl⟩

end Accumulator

/-! ### Aggregations that can go on -/

/-- The values are added up, so that they have to be numbers. -/
def AggregationKind.adds : AggregationKind → Bool
  | .max => false
  | .min => false
  | _ => true

namespace AggregateColumn

open Accumulator (IsTotal)

variable {c : AggregateColumn} {a : Accumulator} {row : Row}

/-- What an aggregation reads in a row can be added up, if it is. -/
def CanAdd (c : AggregateColumn) (row : Row) : Prop :=
  c.kind.adds = true → ∀ i ∈ c.sources, (row.getD i .null).IsSummand

/-- An aggregation in progress that can go on, as it holds numbers where values are added up. -/
inductive IsSound (c : AggregateColumn) : Accumulator → Prop
  | sum {total : Option Value} (hadds : c.kind.adds = true) (htotal : IsTotal total) :
      IsSound c ⟨c.kind, .sum total⟩
  | extreme (keep : Ordering) (best : Option Value) : IsSound c ⟨c.kind, .extreme keep best⟩
  | average {count sum : Option Value} {i j : Nat} (hadds : c.kind.adds = true)
      (haverage : c.average = some (i, j)) (hcount : IsTotal count) (hsum : IsTotal sum) :
      IsSound c ⟨c.kind, .average count sum⟩
  | distinct {seen : List Value} (hadds : c.kind.adds = true)
      (hseen : ∀ v ∈ seen, v.StandsForNumber) : IsSound c ⟨c.kind, .distinct seen⟩

/-- An aggregation before any row can go on, where an average has the columns that it needs. -/
theorem isSound_start (haverage : c.kind = .avg → c.distinct = false → c.average.isSome = true) :
    c.IsSound c.start := by
  obtain ⟨kind, distinct, index, average⟩ := c
  have hnone := Accumulator.isTotal_none
  have hseen : ∀ v ∈ ([] : List Value), v.StandsForNumber := fun v hv => absurd hv List.not_mem_nil
  cases kind with
  | max => exact .extreme ..
  | min => exact .extreme ..
  | avg =>
      cases distinct with
      | true => exact .distinct rfl hseen
      | false =>
          obtain ⟨⟨i, j⟩, hpair⟩ := Option.isSome_iff_exists.1 (haverage rfl rfl)
          exact .average rfl hpair hnone hnone
  | count =>
      cases distinct with
      | true => exact .distinct rfl hseen
      | false => exact .sum rfl hnone
  | sum =>
      cases distinct with
      | true => exact .distinct rfl hseen
      | false => exact .sum rfl hnone

theorem exists_sources (c : AggregateColumn) : ∃ i rest, c.sources = i :: rest := by
  unfold sources
  split
  · exact ⟨_, _, rfl⟩
  · exact ⟨_, _, rfl⟩

/-- **A sound aggregation takes a row in and stays sound**, when the row has what it reads. -/
theorem exists_takeIn (h : c.IsSound a) (hwide : ∀ i ∈ c.sources, i < row.length)
    (hadd : c.CanAdd row) : ∃ a', c.takeIn a row = .ok a' ∧ c.IsSound a' := by
  have hinputs : c.inputs row = .ok (c.sources.map fun i => row.getD i .null) :=
    mapM_getElem?_eq_ok.2 ⟨hwide, rfl⟩
  obtain ⟨i, rest, hsources⟩ := c.exists_sources
  have hfirst : i ∈ c.sources := hsources ▸ List.mem_cons_self ..
  rw [takeIn, hinputs, hsources, List.map_cons]
  cases h with
  | @sum total hadds htotal =>
      obtain ⟨total', htotal', hsum⟩ := Accumulator.exists_addTo htotal (hadd hadds i hfirst)
      refine ⟨⟨c.kind, .sum total'⟩, ?_, .sum hadds hsum⟩
      simp only [bind, Except.bind, Accumulator.take, Accumulator.merge, htotal']
      rfl
  | extreme keep best => exact ⟨_, rfl, .extreme keep _⟩
  | @average count sum i' j hadds haverage hcount hsum =>
      have hpair : c.sources = [i', j] := by rw [sources, haverage]
      rw [hpair, List.cons.injEq] at hsources
      obtain ⟨rfl, rfl⟩ := hsources
      have hsecond : j ∈ c.sources := by simp [hpair]
      obtain ⟨count', hcount', hcounts⟩ := Accumulator.exists_addTo hcount (hadd hadds _ hfirst)
      obtain ⟨sum', hsum', hsums⟩ := Accumulator.exists_addTo hsum (hadd hadds _ hsecond)
      refine ⟨⟨c.kind, .average count' sum'⟩, ?_, .average hadds haverage hcounts hsums⟩
      simp only [bind, Except.bind, Accumulator.take, Accumulator.merge, List.map_cons, hcount',
        hsum']
      rfl
  | @distinct seen hadds hseen =>
      refine ⟨_, rfl, .distinct hadds fun v hv => ?_⟩
      unfold Accumulator.seenWith at hv
      split at hv
      · exact hseen v hv
      · rename_i hnew
        rcases List.mem_append.1 hv with hv | hv
        · exact hseen v hv
        · -- the value is new, so that it is not null
          rw [List.mem_singleton.1 hv]
          rw [Bool.or_eq_true, not_or] at hnew
          exact (hadd hadds i hfirst).resolve_left hnew.1

/-- **A sound aggregation has an outcome.** -/
theorem exists_result (h : c.IsSound a) : ∃ v, a.result = .ok v := by
  cases h with
  | @sum total hadds htotal => cases total <;> exact ⟨_, rfl⟩
  | extreme keep best => exact ⟨_, rfl⟩
  | @average count sum i j hadds haverage hcount hsum =>
      cases count with
      | none => exact ⟨_, rfl⟩
      | some n =>
          cases sum with
          | none => exact ⟨_, rfl⟩
          | some total => exact Accumulator.exists_divide (hsum total rfl) (hcount n rfl)
  | distinct hadds hseen => exact Accumulator.exists_ofDistinct c.kind hseen

end AggregateColumn

/-! ### The row of a group -/

namespace Group

variable {groupColumns : List Nat} {columns : List AggregateColumn} {rows : List Row}

/-- **A group has a row** when its aggregations can take its rows in. -/
theorem exists_rowAt (key : List Value) (hstart : ∀ c ∈ columns, c.IsSound c.start)
    (hwide : ∀ r ∈ rows, ∀ c ∈ columns, ∀ i ∈ c.sources, i < r.length)
    (hadd : ∀ r ∈ rows, ∀ c ∈ columns, c.CanAdd r) :
    ∃ row, rowAt groupColumns columns rows key = .ok row := by
  have hstep : ∀ r ∈ rows.filter fun r => keyOf groupColumns r = key, ∀ c ∈ columns, ∀ a,
      c.IsSound a → ∃ a', c.takeIn a r = .ok a' ∧ c.IsSound a' := fun r hr c hc a ha =>
    have hr := List.mem_of_mem_filter hr
    AggregateColumn.exists_takeIn ha (hwide r hr c hc) (hadd r hr c hc)
  obtain ⟨g, hg, hsound⟩ := exists_ofRun key hstart hstep
  obtain ⟨row, hrow⟩ := exists_finish (hsound.imp fun _ _ ha => AggregateColumn.exists_result ha)
  exact ⟨row, Outcome.bind_eq_ok.2 ⟨g, hg, hrow⟩⟩

/-- Without group columns all rows have one key. -/
theorem keysOf_nil (h : rows ≠ []) : keysOf [] rows = [[]] := by
  obtain ⟨row, rest, rfl⟩ := List.exists_cons_of_ne_nil h
  have hkeys : ∀ key ∈ keysOf [] (row :: rest), key = [] := by
    intro key hkey
    obtain ⟨r, -, rfl⟩ := mem_keysOf.1 hkey
    rfl
  have hmem : [] ∈ keysOf [] (row :: rest) := mem_keysOf.2 ⟨row, List.mem_cons_self .., rfl⟩
  have hnodup := nodup_keysOf [] (row :: rest)
  generalize keysOf [] (row :: rest) = keys at hkeys hmem hnodup
  cases keys with
  | nil => cases hmem
  | cons k keys =>
      obtain ⟨rfl, hrest⟩ := List.forall_mem_cons.1 hkeys
      obtain ⟨hnot, -⟩ := List.nodup_cons.1 hnodup
      rw [List.eq_nil_iff_forall_not_mem.2 fun k hk => hnot (hrest k hk ▸ hk)]

end Group

/-! ### The columns of a statement -/

namespace AggregateColumn

variable {s : Select} {labels : List String} {a : Aggregation} {c : AggregateColumn}

/-- An average has a count and a sum. -/
theorem isSome_average {n : Select.Numbered} (h : n.aggregation? = some a) (hkind : a.kind = .avg)
    (hdistinct : a.distinct = false) : a.average.isSome = true := by
  obtain ⟨item, averages, distincts⟩ := n
  cases item with
  | aggregation kind distinct text inner alias? start stop =>
      cases distinct with
      | true =>
          cases h
          cases hdistinct
      | false =>
          cases kind with
          | avg =>
              cases h
              rfl
          | _ =>
              cases h
              cases hkind
  | _ => cases h

/-- The columns that an aggregation reads are columns of a cursor. -/
theorem IsFor.sources_lt (h : IsFor labels a c) : ∀ i ∈ c.sources, i < labels.length := by
  have haverage := h.average
  unfold sources
  cases hc : c.average with
  | none =>
      intro i hi
      rw [List.mem_singleton.1 hi]
      exact h.index.lt_length
  | some q =>
      obtain ⟨i, j⟩ := q
      rw [hc] at haverage
      generalize a.average = average at haverage
      cases haverage with
      | some hat =>
          intro k hk
          rw [List.mem_cons, List.mem_singleton] at hk
          rcases hk with rfl | rfl
          · exact hat.1.lt_length
          · exact hat.2.lt_length

/-- The aggregations of a statement can go on before any row. -/
theorem IsFor.isSound_start (h : IsFor labels a c) (ha : a ∈ s.aggregations) :
    c.IsSound c.start := by
  obtain ⟨n, -, ha⟩ := List.mem_filterMap.1 ha
  refine AggregateColumn.isSound_start fun hkind hdistinct => ?_
  have hsome := isSome_average ha (h.kind ▸ hkind) (h.distinct ▸ hdistinct)
  have haverage := h.average
  cases hc : c.average with
  | some q => rfl
  | none =>
      rw [hc] at haverage
      generalize a.average = average at haverage hsome
      cases haverage
      cases hsome

end AggregateColumn

/-- The group of rows with the columns of a statement has a row. -/
theorem Group.exists_rowAt_of_isFor {s : Select} {labels : List String}
    {columns : List AggregateColumn} {groupColumns : List Nat} {rows : List Row}
    (hfor : List.Forall₂ (AggregateColumn.IsFor labels) s.aggregations columns)
    (hwide : ∀ r ∈ rows, r.length = labels.length)
    (hadd : ∀ r ∈ rows, ∀ c ∈ columns, c.CanAdd r) (key : List Value) :
    ∃ row, rowAt groupColumns columns rows key = .ok row := by
  refine exists_rowAt key (fun c hc => ?_) (fun r hr c hc => ?_) hadd
  · obtain ⟨a, ha, hac⟩ := Lists.exists_of_forall₂_right hfor hc
    exact hac.isSound_start ha
  · obtain ⟨a, -, hac⟩ := Lists.exists_of_forall₂_right hfor hc
    rw [hwide r hr]
    exact hac.sources_lt

/-! ### Cursors with one row -/

/-- A cursor has the labels of the select list and holds one row, in which what is added up are
numbers or null. -/
def Select.ReturnsOne (s : Select) (labels : List String) (c : Cursor) : Prop :=
  ∃ row, c = Cursor.ofRows labels [row] ∧ row.length = labels.length ∧
    ∀ columns, AggregateColumn.ofSelect s labels = .ok columns →
      ∀ column ∈ columns, column.CanAdd row

namespace Select.ReturnsOne

variable {s : Select} {labels : List String} {c : Cursor}

theorem plan (h : s.ReturnsOne labels c) : c.plan = .none := by
  obtain ⟨row, hc, -⟩ := h
  exact Cursor.plan_of_eq_ofRows hc

theorem labels_eq (h : s.ReturnsOne labels c) : c.labels = labels := by
  obtain ⟨row, rfl, -⟩ := h
  rfl

theorem length_rest (h : s.ReturnsOne labels c) : c.rest.length = 1 := by
  obtain ⟨row, rfl, -⟩ := h
  rfl

/-- The row is as wide as the labels, and its values can be added up. -/
theorem of_mem_rest (h : s.ReturnsOne labels c) {columns : List AggregateColumn}
    (hcolumns : AggregateColumn.ofSelect s labels = .ok columns) {r : Row} (hr : r ∈ c.rest) :
    r.length = labels.length ∧ ∀ column ∈ columns, column.CanAdd r := by
  obtain ⟨row, rfl, hwide, hadd⟩ := h
  cases List.mem_singleton.1 hr
  exact ⟨hwide, hadd columns hcolumns⟩

end Select.ReturnsOne

/-! ### The rows of a merge -/

namespace MergedRows

/-- A single cursor is read as it is. -/
theorem yields_single {c : Cursor} (hplan : c.plan = .none) : (single c).Yields c.rest := by
  generalize hrest : c.rest = rows
  induction rows generalizing c with
  | nil => exact .done (by rw [next, Cursor.advance_nil hplan hrest])
  | cons row rows ih =>
      have hadvance := Cursor.advance_cons hplan hrest
      have hplan' : c.advance.2.plan = .none := by
        rw [hadvance]
        exact hplan
      have hrest' : c.advance.2.rest = rows := by rw [hadvance]
      refine .row (by rw [next, hadvance]) (fun column => ?_) (ih hplan' hrest')
      exact Cursor.cell_eq_rowValue hplan' (by rw [hadvance]) column

/-- **Without groups the rows of some cursors are one group.** -/
theorem exists_held_row {s : Select} {labels : List String} {cursors : List Cursor}
    (haggregation : s.hasAggregation = true) (hgroupBy : s.groupBy = [])
    (horderBy : s.orderBy = []) (hlabels : ∀ label, some label ∈ s.labels → label ∈ labels)
    (hcursors : ∀ c ∈ cursors, s.ReturnsOne labels c) (hne : cursors ≠ []) :
    ∃ row cursors', ofCursors s labels cursors = .ok (.held [row] none cursors') := by
  obtain ⟨columns, hcolumns, hfor⟩ := AggregateColumn.exists_ofSelect hlabels
  have hrows : ∀ r ∈ (cursors.map (·.rest)).flatten,
      r.length = labels.length ∧ ∀ column ∈ columns, column.CanAdd r := by
    intro r hr
    obtain ⟨l, hl, hr⟩ := List.mem_flatten.1 hr
    obtain ⟨c, hc, rfl⟩ := List.mem_map.1 hl
    exact (hcursors c hc).of_mem_rest hcolumns hr
  have hsome : (cursors.map (·.rest)).flatten ≠ [] := by
    obtain ⟨first, rest, rfl⟩ := List.exists_cons_of_ne_nil hne
    have hfirst := (hcursors first (List.mem_cons_self ..)).length_rest
    rw [List.map_cons, List.flatten_cons]
    exact List.append_ne_nil_of_left_ne_nil (List.ne_nil_of_length_pos (by omega)) _
  obtain ⟨row, hrow⟩ := Group.exists_rowAt_of_isFor hfor (fun r hr => (hrows r hr).1)
    (fun r hr => (hrows r hr).2) []
  have hmade : (Group.keysOf [] (cursors.map (·.rest)).flatten).mapM
      (Group.rowAt [] columns (cursors.map (·.rest)).flatten) = .ok [row] := by
    rw [Group.keysOf_nil hsome, Outcome.mapM_eq_ok]
    exact .cons hrow .nil
  have hmerged : (Group.ofCursors [] [] columns cursors).1 = .ok [row] := by
    refine (Group.ofCursors_eq_ok (fun c hc => (hcursors c hc).plan) fun c hc r hr => ?_).2
      ⟨fun _ _ i hi => absurd hi List.not_mem_nil, [row], hmade,
        fun _ _ k hk => absurd hk List.not_mem_nil, Group.sortKeyed_nil [row]⟩
    rw [(hcursors c hc).labels_eq]
    exact ((hcursors c hc).of_mem_rest hcolumns hr).1
  have horder : s.order = [] := by
    rw [Select.order, Select.orderGenerated, hgroupBy, horderBy]
    rfl
  have hunordered : s.groupsAreOrdered = false := by
    rw [Select.groupsAreOrdered, hgroupBy]
    rfl
  have hkeys : SortKey.ofItems s labels [] = .ok [] := rfl
  refine ⟨row, (Group.ofCursors [] [] columns cursors).2, ?_⟩
  rw [← holdGroups_eq_ok.2 ⟨[row], hmerged, rfl⟩]
  simp only [ofCursors, group, horder, hgroupBy, hkeys, haggregation, hcolumns, hunordered,
    Bool.or_true, if_true, Bool.false_eq_true, if_false]
  rfl

end MergedRows

namespace Merged

/-- Reading to the end does not fail, and gives some rows before their columns are decrypted. -/
def Gives (m : Merged) (rows : List Row) : Prop :=
  Offering Merged.next (fun m row => m.rows.Shows row) m (rows.map .ok)

/-- Without a cut merged rows are given as they are. -/
theorem gives_of_yields {m : MergedRows} {rows : List Row} (h : m.Yields rows)
    (encryptors : List (Option Encryptor)) :
    ({ rows := m, encryptors := encryptors } : Merged).Gives rows :=
  Offering.map (fun m : MergedRows => ({ rows := m, encryptors := encryptors } : Merged))
    (fun _ => rfl) (fun _ _ hrow => hrow) h

variable {s : Select} {labels : List String} {cursors : List Cursor}

/-- **An aggregation without groups has one row if there are cursors, and none if there are not.**
The statement aggregates something and has neither groups nor order nor pagination.  Every cursor
has the labels of the select list and holds one row, in which what is added up are numbers or null.
Then the merge succeeds, and reading it to the end gives one row, unless there are no cursors. -/
theorem single_row_spec (rule : Rule) (d : Dialect) (parameters : List Value)
    (haggregation : s.hasAggregation = true) (hgroupBy : s.groupBy = [])
    (horderBy : s.orderBy = []) (hpagination : s.pagination = none)
    (hlabels : ∀ label, some label ∈ s.labels → label ∈ labels)
    (hcursors : ∀ c ∈ cursors, s.ReturnsOne labels c) :
    ∃ m rows, ofCursors rule d (.select s) parameters cursors = .ok m ∧ m.Gives rows ∧
      rows.length = min cursors.length 1 := by
  match cursors with
  | [] => exact ⟨_, [], rfl, gives_of_yields (MergedRows.yields_held [] none []) [], rfl⟩
  | [c] =>
      have hone := hcursors c (List.mem_singleton.2 rfl)
      refine ⟨_, c.rest, rfl, gives_of_yields (MergedRows.yields_single hone.plan) _, ?_⟩
      exact hone.length_rest
  | first :: second :: rest =>
      have hfirst := (hcursors first (List.mem_cons_self ..)).labels_eq
      obtain ⟨row, cursors', hheld⟩ := MergedRows.exists_held_row haggregation hgroupBy horderBy
        hlabels hcursors (List.cons_ne_nil first (second :: rest))
      refine ⟨{ rows := .held [row] none cursors'
                encryptors := encryptorsFor rule.encrypt s first.labels }, [row], ?_,
        gives_of_yields (MergedRows.yields_held [row] none cursors') _, by simp⟩
      simp only [ofCursors, ofSelect, hfirst, hheld, cutFor, Select.window, hpagination]
      rfl

/-- The number of orders, the average of their prices and the last of their names. -/
def orderTotals : Select where
  tables := [.ofName "t_order" 46]
  projections := { items := [.ofAggregation .count false "*" "COUNT(*)" 7,
    .ofAggregation .avg false "price" "AVG(price)" 17,
    .ofAggregation .max false "name" "MAX(name)" 29] }

/-- The labels of the columns that a shard returns. -/
def totalsLabels : List String :=
  ["COUNT(*)", "AVG(price)", "MAX(name)", "AVG_DERIVED_COUNT_0", "AVG_DERIVED_SUM_0"]

/-- Two data sources without rules for their tables. -/
def plainRule : Rule := ⟨[], [], [], ["ds_0", "ds_1"], none, {}, [], {}⟩

/-- Two shards have one row together, although one of them has orders without a price. -/
theorem single_row_spec_totals :
    ∃ m rows, ofCursors plainRule .mySql (.select orderTotals) []
        [.ofRows totalsLabels [[.int 2, .int 10, .text "b", .int 2, .int 20]],
          .ofRows totalsLabels [[.int 3, .null, .text "a", .int 0, .null]]] = .ok m ∧
      m.Gives rows ∧ rows.length = 1 := by
  have hsummand : ∀ v : Value, (v.isInt || v.isNull) = true → v.IsSummand := by
    intro v hv
    cases v with
    | null => exact .inl rfl
    | int n => exact .inr ⟨_, rfl⟩
    | _ => cases hv
  have hcolumns : AggregateColumn.ofSelect orderTotals totalsLabels =
      .ok [⟨.count, false, 0, none⟩, ⟨.avg, false, 1, some (3, 4)⟩, ⟨.max, false, 2, none⟩] := by
    decide +kernel
  have hadd : ∀ row ∈ [[Value.int 2, .int 10, .text "b", .int 2, .int 20],
      [.int 3, .null, .text "a", .int 0, .null]], ∀ columns,
      AggregateColumn.ofSelect orderTotals totalsLabels = .ok columns →
      ∀ column ∈ columns, column.CanAdd row := by
    intro row hrow columns h column hcolumn hadds i hi
    cases hcolumns.symm.trans h
    have hnumbers : ∀ row ∈ [[Value.int 2, .int 10, .text "b", .int 2, .int 20],
        [.int 3, .null, .text "a", .int 0, .null]], ∀ i ∈ [0, 3, 4],
        ((row.getD i .null).isInt || (row.getD i .null).isNull) = true := by decide
    have hsources : ∀ c ∈ [(⟨.count, false, 0, none⟩ : AggregateColumn),
        ⟨.avg, false, 1, some (3, 4)⟩, ⟨.max, false, 2, none⟩], c.kind.adds = true →
        ∀ i ∈ c.sources, i ∈ [0, 3, 4] := by decide
    exact hsummand _ (hnumbers row hrow i (hsources column hcolumn hadds i hi))
  have hlabels : orderTotals.labels = totalsLabels.map some := by decide +kernel
  refine single_row_spec plainRule .mySql [] (by decide) rfl rfl rfl
    (fun label h => Select.mem_of_mem_labels hlabels h) fun c hc => ?_
  rw [List.mem_cons, List.mem_singleton] at hc
  rcases hc with rfl | rfl
  · exact ⟨_, rfl, rfl, hadd _ (List.mem_cons_self ..)⟩
  · exact ⟨_, rfl, rfl, hadd _ (List.mem_cons_of_mem _ (List.mem_singleton.2 rfl))⟩

/-- When the condition routes the statement nowhere there is no row, and so no count of zero. -/
theorem no_row_without_cursors :
    orderTotals.hasAggregation = true ∧ orderTotals.groupBy = [] ∧
      ∃ m, ofCursors plainRule .mySql (.select orderTotals) [] [] = .ok m ∧ m.next.1 = .ok false :=
  ⟨by decide, rfl, _, rfl, rfl⟩

end Merged

end ShardedSql
