/-
**The aggregations of a group, each by itself.**

A row of a group is taken in to all its aggregations at once, and in the end the outcome of each of
them is put into its column.  An aggregation looks only at the columns that it reads, so that what
becomes of it can be told without the others: it is what it makes of the rows of the group.

Main definitions:

* `ShardedSql.AggregateColumn.takeIn` — one aggregation that takes a row in;
* `ShardedSql.AggregateColumn.aggregate` — **what is aggregated in a column of some rows**.

Main results:

* `ShardedSql.Group.exists_mergeRow`, `ShardedSql.Group.forall₂_of_mergeRow` — a row is taken in to
  the aggregations one by one;
* `ShardedSql.Group.exists_ofRun`, `ShardedSql.Group.taken_of_ofRun` — so are the rows of a group;
* `ShardedSql.Group.outcomes_of_finish` — aggregations in different columns do not overwrite each
  other;
* `ShardedSql.Group.aggregate_of_rowAt` — **every column of the row of a group has what is
  aggregated in it**.
-/

import ShardedSql.Proofs.Accumulator.Distinct
import ShardedSql.Proofs.Grouping

set_option relaxedAutoImplicit false
set_option autoImplicit false

namespace ShardedSql

namespace AggregateColumn

/-- Takes a row in to an aggregation. -/
def takeIn (c : AggregateColumn) (a : Accumulator) (row : Row) : Outcome Accumulator :=
  c.inputs row >>= a.take

/-- What is aggregated in a column of some rows. -/
def aggregate (c : AggregateColumn) (rows : List Row) : Outcome Value :=
  rows.foldlM c.takeIn c.start >>= Accumulator.result

end AggregateColumn

namespace Group

variable {columns : List AggregateColumn} {accumulators accumulators' : List Accumulator}
  {key : List Value} {row : Row} {rows : List Row} {g : Group}
  {P Q : AggregateColumn → Accumulator → Prop}

/-! ### One row -/

theorem mergeRow_cons (row : Row) (c : AggregateColumn) (columns : List AggregateColumn)
    (a : Accumulator) (accumulators : List Accumulator) :
    mergeRow row (c :: columns) (a :: accumulators) =
      c.takeIn a row >>= fun a =>
        mergeRow row columns accumulators >>= fun rest => pure (a :: rest) := by
  simp only [mergeRow, AggregateColumn.takeIn, bind_assoc]
  refine bind_congr fun values => ?_
  unfold Accumulator.take
  generalize a.merge values = p
  obtain ⟨x, a'⟩ := p
  cases x <;> rfl

/-- A row is taken in when each aggregation takes it in. -/
theorem exists_mergeRow (h : List.Forall₂ P columns accumulators)
    (hstep : ∀ c ∈ columns, ∀ a, P c a → ∃ a', c.takeIn a row = .ok a' ∧ Q c a') :
    ∃ accumulators', mergeRow row columns accumulators = .ok accumulators' ∧
      List.Forall₂ Q columns accumulators' := by
  induction h with
  | nil => exact ⟨[], rfl, .nil⟩
  | @cons c a columns accumulators ha _ ih =>
      obtain ⟨hc, hcolumns⟩ := List.forall_mem_cons.1 hstep
      obtain ⟨a', htake, ha'⟩ := hc a ha
      obtain ⟨rest, hmerge, hrest⟩ := ih hcolumns
      refine ⟨a' :: rest, ?_, .cons ha' hrest⟩
      rw [mergeRow_cons]
      exact Outcome.bind_eq_ok.2 ⟨a', htake, Outcome.bind_eq_ok.2 ⟨rest, hmerge, rfl⟩⟩

/-- When a row was taken in each aggregation took it in. -/
theorem forall₂_of_mergeRow (hmerge : mergeRow row columns accumulators = .ok accumulators')
    (h : List.Forall₂ P columns accumulators)
    (hstep : ∀ c a a', P c a → c.takeIn a row = .ok a' → Q c a') :
    List.Forall₂ Q columns accumulators' := by
  induction h generalizing accumulators' with
  | nil =>
      cases hmerge
      exact .nil
  | @cons c a columns accumulators ha _ ih =>
      rw [mergeRow_cons] at hmerge
      obtain ⟨a', htake, hmerge⟩ := Outcome.bind_eq_ok.1 hmerge
      obtain ⟨rest, hrest, hmerge⟩ := Outcome.bind_eq_ok.1 hmerge
      cases hmerge
      exact .cons (hstep c a a' ha htake) (ih hrest)

/-! ### The rows of a group -/

/-- The rows of a group are taken in when each aggregation can take them in. -/
theorem exists_ofRun (key : List Value) (hstart : ∀ c ∈ columns, P c c.start)
    (hstep : ∀ row ∈ rows, ∀ c ∈ columns, ∀ a, P c a → ∃ a', c.takeIn a row = .ok a' ∧ P c a') :
    ∃ g, ofRun columns key rows = .ok g ∧ List.Forall₂ P columns g.tallies := by
  refine Outcome.exists_foldlM_eq_ok (P := fun g : Group => List.Forall₂ P columns g.tallies)
    (fun g hg row hrow => ?_) (List.forall₂_map_right_iff.2 (List.forall₂_same.2 hstart))
  obtain ⟨tallies, hmerge, htallies⟩ := exists_mergeRow hg (hstep row hrow)
  exact ⟨{ g with tallies := tallies }, Outcome.bind_eq_ok.2 ⟨tallies, hmerge, rfl⟩, htallies⟩

/-- **Each aggregation of a group has taken in the rows of the group.** -/
theorem taken_of_ofRun (h : ofRun columns key rows = .ok g) :
    List.Forall₂ (fun c a => rows.foldlM c.takeIn c.start = .ok a) columns g.tallies := by
  suffices hmore : ∀ (done rows : List Row) (g g' : Group),
      List.Forall₂ (fun c a => done.foldlM c.takeIn c.start = .ok a) columns g.tallies →
      rows.foldlM (fun g row => mergeInto columns row g) g = .ok g' →
      List.Forall₂ (fun c a => (done ++ rows).foldlM c.takeIn c.start = .ok a) columns
        g'.tallies by
    refine hmore [] rows _ g ?_ h
    exact List.forall₂_map_right_iff.2 (List.forall₂_same.2 fun c _ => List.foldlM_nil ..)
  intro done rows
  induction rows generalizing done with
  | nil =>
      intro g g' hg hfold
      cases hfold
      rwa [List.append_nil]
  | cons row rows ih =>
      intro g g' hg hfold
      rw [List.foldlM_cons] at hfold
      obtain ⟨g₁, hinto, hrest⟩ := Outcome.bind_eq_ok.1 hfold
      obtain ⟨tallies, hmerge, hg₁⟩ := Outcome.bind_eq_ok.1 hinto
      cases hg₁
      rw [List.append_cons]
      refine ih (done ++ [row]) { g with tallies := tallies } g' ?_ hrest
      refine forall₂_of_mergeRow hmerge hg fun c a a' ha htake => ?_
      rw [List.foldlM_append]
      exact Outcome.bind_eq_ok.2 ⟨a, ha, Outcome.bind_eq_ok.2 ⟨a', htake, rfl⟩⟩

/-! ### The row of a group -/

/-- A group has a row when each aggregation has an outcome. -/
theorem exists_finish
    (h : List.Forall₂ (fun _ a => ∃ v, Accumulator.result a = .ok v) columns g.tallies) :
    ∃ row, g.finish columns = .ok row := by
  obtain ⟨key, first, tallies⟩ := g
  simp only at h
  induction h generalizing first with
  | nil => exact ⟨first, rfl⟩
  | @cons c a columns tallies ha _ ih =>
      obtain ⟨v, hv⟩ := ha
      obtain ⟨row, hrow⟩ := ih (first.set c.index v)
      refine ⟨row, ?_⟩
      rw [finish_cons, hv]
      exact hrow

/-- **Every aggregation has its outcome in its column**, when these are different columns of the
row. -/
theorem outcomes_of_finish (h : List.Forall₂ P columns g.tallies)
    (hnodup : (columns.map (·.index)).Nodup) (hwide : ∀ c ∈ columns, c.index < g.first.length)
    (hfinish : g.finish columns = .ok row) :
    ∀ c ∈ columns, ∃ a v, P c a ∧ a.result = .ok v ∧ row[c.index]? = some v := by
  obtain ⟨key, first, tallies⟩ := g
  simp only at h hwide
  induction h generalizing first with
  | nil => exact fun c hc => absurd hc List.not_mem_nil
  | @cons c a columns tallies ha _ ih =>
      obtain ⟨hnot, hnodup⟩ := List.nodup_cons.1 hnodup
      obtain ⟨hcwide, hwide⟩ := List.forall_mem_cons.1 hwide
      rw [finish_cons] at hfinish
      obtain ⟨v, hv, hrest⟩ := Outcome.bind_eq_ok.1 hfinish
      have hkeep := (finish_spec hrest).2 c.index fun d hd he =>
        hnot (List.mem_map.2 ⟨d, hd, he⟩)
      refine List.forall_mem_cons.2 ⟨⟨a, v, ha, hv, ?_⟩, ?_⟩
      · rw [hkeep, List.getElem?_set_self hcwide]
      · exact ih hnodup (first.set c.index v) (by simpa only [List.length_set] using hwide) hrest

/-- **Every column of the row of a group has what is aggregated in it**, over all rows with the key
of the group. -/
theorem aggregate_of_rowAt {groupColumns : List Nat} (hnodup : (columns.map (·.index)).Nodup)
    (hwide : ∀ r ∈ rows, ∀ c ∈ columns, c.index < r.length)
    (hkey : key ∈ keysOf groupColumns rows) (h : rowAt groupColumns columns rows key = .ok row) :
    ∀ c ∈ columns, ∃ v, c.aggregate (rows.filter fun r => keyOf groupColumns r = key) = .ok v ∧
      row[c.index]? = some v := by
  obtain ⟨g, hg, hfinish⟩ := Outcome.bind_eq_ok.1 h
  have hfirst := hwide g.first (first_of_atKey hkey hg).1
  intro c hc
  obtain ⟨a, v, htaken, hv, hget⟩ :=
    outcomes_of_finish (taken_of_ofRun hg) hnodup hfirst hfinish c hc
  exact ⟨v, Outcome.bind_eq_ok.2 ⟨a, htaken, hv⟩, hget⟩

end Group

end ShardedSql
