/-
**Asking each shard for its first rows only.**

A statement with a window is rewritten so that a shard returns its rows from the first one on, up to
the number of the last row of the window.  What a shard does not return then is behind as many rows
of the same shard, so that it is behind the window.

Main definitions:

* `ShardedSql.Cursor.upTo` — the cursor with its first rows only;
* `ShardedSql.PageBound.admitted` — how many rows a bound on the number of rows lets through;
* `ShardedSql.PageBound.RevisedTo` — what is changed when a bound is given another number;
* `ShardedSql.Routed.AsksFor` — what the rewritten statement asks each shard for.

Main results:

* `ShardedSql.Window.select_take` — **no row behind those that are asked for is in the window**;
* `ShardedSql.Editing.revisedTo_revise` — a bound is given its other number in the text or in the
  parameters;
* `ShardedSql.Routed.asksFor` — the rewritten statement asks for as many rows as the window needs;
* `ShardedSql.SortKey.take_sortRows` — the sort of the first rows of each shard begins like the sort
  of all rows;
* `ShardedSql.Select.pushdown_spec` — **the window of the rows that are asked for is the window of
  all rows**.
-/

import ShardedSql.Editor
import ShardedSql.Proofs.Outcome
import ShardedSql.Proofs.Sorting.Prefix
import ShardedSql.Proofs.Window

set_option relaxedAutoImplicit false
set_option autoImplicit false

namespace ShardedSql

open CursorQueue (Mergeable)
open SortKey

/-- The cursor with its first rows only, as many as a number says. -/
def Cursor.upTo (count : Option Int) (c : Cursor) : Cursor :=
  match count with
  | none => c
  | some n => { c with rest := c.rest.take n.toNat }

/-- How many rows a number lets through as a bound on the number of rows.  An open bound on the
number of a row does not let the row with that number through. -/
def PageBound.admitted (style : PaginationStyle) (bound : PageBound) (n : Int) : Nat :=
  (if bound.opened && style = .rowNumber then n - 1 else n).toNat

/-- What an editor changes to give a bound another number, and that it changes nothing else.  A
number that is written is replaced by one edit in its place, and of one that is bound the value of
its parameter is replaced. -/
structure PageBound.RevisedTo (bound : PageBound) (n : Int) (m : Editing PUnit) : Prop where
  literal : ∀ k, bound.number = .literal k → ∀ d : Draft, ∃ e : Edit,
    m.run.run d = (.ok ⟨⟩, { d with edits := d.edits ++ [e] }) ∧
      e.start = bound.start ∧ e.stop? = some bound.stop ∧ ∀ place, e.render place = toString n
  marker : ∀ index, bound.number = .marker index → ∀ edits slots added slot,
    slots[index]? = some slot →
      m.run.run ⟨edits, .whole ⟨slots, added⟩⟩ =
        (.ok ⟨⟩, ⟨edits, .whole ⟨slots.set index ⟨.int (Int64.ofInt n), slot.after⟩, added⟩⟩)

/-- The statement as it is rewritten for its placements asks each of them for its rows from the
first one on, and for as many as a number says, or for all of them. -/
structure Routed.AsksFor (rule : Rule) (r : Routed) (w : Window) (count : Option Int) : Prop where
  offset : ∀ bound ∈ w.clause.offset, bound.RevisedTo 0 (Editor.runAll rule r [.offset])
  rowCount : ∀ bound ∈ w.clause.rowCount, ∃ n, 0 ≤ n ∧ n ≤ Signed.greatest ∧
    bound.RevisedTo n (Editor.runAll rule r [.rowCount]) ∧
      count.map Int.toNat = some (bound.admitted w.clause.style n)
  fromFirst : w.clause.offset = none → Editor.runAll rule r [.offset] = pure ⟨⟩
  toLast : w.clause.rowCount = none → Editor.runAll rule r [.rowCount] = pure ⟨⟩ ∧ count = none

/-! ### Windows of a statement -/

namespace Window

variable {w : Window} {p : Pagination} {parameters : List Value}

/-- Bounds that are given have numbers. -/
theorem resolve_spec (h : resolve p parameters = .ok w) :
    w.clause = p ∧ w.offset.isSome = p.offset.isSome ∧ w.rowCount.isSome = p.rowCount.isSome := by
  have hsome : ∀ (bound? : Option PageBound) (n? : Option Int),
      bound?.mapM (PageBound.resolve parameters) = .ok n? → n?.isSome = bound?.isSome := by
    intro bound? n? hmap
    cases bound? with
    | none =>
        cases hmap
        rfl
    | some bound =>
        obtain ⟨n, -, hn⟩ := Outcome.bind_eq_ok.1 hmap
        cases hn
        rfl
  obtain ⟨offset, hoffset, h⟩ := Outcome.bind_eq_ok.1 h
  obtain ⟨rowCount, hrowCount, h⟩ := Outcome.bind_eq_ok.1 h
  cases h
  exact ⟨rfl, hsome _ _ hoffset, hsome _ _ hrowCount⟩

/-- The window of a statement is that of its clause. -/
theorem of_window {s : Select} (h : s.window parameters = .ok (some w)) :
    s.pagination = some w.clause ∧ w.offset.isSome = w.clause.offset.isSome ∧
      w.rowCount.isSome = w.clause.rowCount.isSome := by
  unfold Select.window at h
  cases hp : s.pagination with
  | none =>
      rw [hp] at h
      cases h
  | some p =>
      rw [hp] at h
      obtain ⟨w', hw, h⟩ := Outcome.bind_eq_ok.1 h
      cases h
      obtain ⟨hclause, hbounds⟩ := resolve_spec hw
      rw [hclause]
      exact ⟨rfl, hbounds⟩

/-- Shards are asked for the rows up to the last one of the window, or for all rows that can be
counted. -/
theorem shardRowCount?_eq {s : Select} (hrows : s.needsAllRows = false) {count : Int}
    (h : w.shardRowCount? s = some count) :
    ∃ stop, w.stop? = some stop ∧ (stop ≤ count ∨ Signed.greatest ≤ count) := by
  unfold shardRowCount? at h
  unfold stop?
  cases hn : w.written? with
  | none =>
      rw [hn] at h
      cases h
  | some n =>
      rw [hn, Option.map_some, hrows] at h
      refine ⟨_, rfl, ?_⟩
      cases hstyle : w.clause.style with
      | limit =>
          simp only [hstyle, Option.some.injEq] at h
          simp only [← h, Signed.held, Signed.greatest, Signed.least]
          omega
      | rowNumber =>
          simp only [hstyle, Option.some.injEq] at h
          exact .inl (Int.le_of_eq h)
      | top =>
          simp only [hstyle, Option.some.injEq] at h
          exact .inl (Int.le_of_eq h)

/-- **No row behind those that shards are asked for is in the window.** -/
theorem select_take {α : Type} {s : Select} (hrows : s.needsAllRows = false) {count : Int}
    (h : w.shardRowCount? s = some count) {rows : List α}
    (hfew : rows.length ≤ Signed.greatest) :
    w.select (rows.take count.toNat) = w.select rows := by
  obtain ⟨stop, hstop, hle⟩ := shardRowCount?_eq hrows h
  have htake : (rows.take count.toNat).take stop.toNat = rows.take stop.toNat := by
    rw [List.take_take]
    rcases hle with hle | hle
    · rw [Nat.min_eq_left (by omega)]
    · -- all rows are asked for
      rw [List.take_eq_take_iff]
      omega
  rw [select_eq, select_eq, hstop]
  simp only [htake]

end Window

/-! ### What shards are asked for -/

namespace Editing

variable {s : Select} {parameters : List Value} {w : Window} {bound : PageBound}

theorem shardOffset_eq (hw : s.window parameters = .ok (some w)) :
    shardOffset s parameters =
      match w.clause.offset with
      | none => pure []
      | some bound => revise bound 0 Edit.offset := by
  unfold shardOffset
  rw [hw]
  rfl

theorem shardRowCount_eq (hw : s.window parameters = .ok (some w)) :
    shardRowCount s parameters =
      match w.clause.rowCount, w.shardRowCount? s with
      | some bound, some count => revise bound (writtenRowCount w bound count) Edit.rowCount
      | _, _ => pure [] := by
  unfold shardRowCount
  rw [hw]
  rfl

/-- **A bound is given its other number where the number is**: in the text, or in the
parameters. -/
theorem revisedTo_revise {n : Int} {edit : Nat → Nat → Int → Edit}
    (hstart : (edit bound.start bound.stop n).start = bound.start)
    (hstop : (edit bound.start bound.stop n).stop? = some bound.stop)
    (hrender : ∀ place, (edit bound.start bound.stop n).render place = toString n) :
    bound.RevisedTo n (do
      let found ← revise bound n edit
      modify fun d => { d with edits := d.edits ++ found }) where
  literal := by
    intro k hk d
    refine ⟨edit bound.start bound.stop n, ?_, hstart, hstop, hrender⟩
    rw [revise, hk]
    rfl
  marker := by
    intro index hindex edits slots added slot hslot
    have hset : (WholeBinding.replace ⟨slots, added⟩ index (.int (Int64.ofInt n))) =
        ⟨slots.set index ⟨.int (Int64.ofInt n), slot.after⟩, added⟩ := by
      rw [WholeBinding.replace, List.modify_eq_set_getElem?, hslot]
      rfl
    calc ((do
          let found ← revise bound n edit
          modify fun d => { d with edits := d.edits ++ found }) : Editing PUnit).run.run
            ⟨edits, .whole ⟨slots, added⟩⟩
        = (.ok ⟨⟩, ⟨edits ++ [],
            .whole (WholeBinding.replace ⟨slots, added⟩ index (.int (Int64.ofInt n)))⟩) := by
          rw [revise, hindex]
          rfl
      _ = _ := by rw [List.append_nil, hset]

/-- The number that is written lets as many rows through as shards are asked for. -/
theorem writtenRowCount_spec {n : Int} (hrows : s.needsAllRows = false)
    (hbound : w.clause.rowCount = some bound) (hn : w.rowCount = some n)
    (hfits : 0 ≤ n ∧ n ≤ Signed.greatest) :
    ∃ count, w.shardRowCount? s = some count ∧ 0 ≤ writtenRowCount w bound count ∧
      writtenRowCount w bound count ≤ Signed.greatest ∧
      bound.admitted w.clause.style (writtenRowCount w bound count) = count.toNat := by
  have hskipped := w.skipped_nonneg
  have hwritten : w.written? =
      some (if bound.opened && w.clause.style = .rowNumber then n - 1 else n) := by
    simp only [Window.written?, hbound, hn]
  unfold Window.shardRowCount? writtenRowCount PageBound.admitted
  rw [hwritten, Option.map_some, hrows]
  refine ⟨_, rfl, ?_⟩
  cases hstyle : w.clause.style with
  | limit =>
      simp only [Signed.held, Signed.greatest, Signed.least] at hfits ⊢
      simp
      omega
  | rowNumber =>
      cases bound.opened with
      | false => simpa using hfits
      | true =>
          -- one row less is asked for, and the open bound is one more than that
          have hheld : Signed.held (n - 1 + 1) = n := by
            rw [Int.sub_add_cancel]
            refine Signed.held_of_fits ⟨?_, hfits.2⟩
            simp only [Signed.least]
            omega
          simp only [Bool.true_and, decide_true, if_true, Bool.false_eq_true, if_false, hheld]
          exact ⟨hfits.1, hfits.2, trivial⟩
  | top => simpa using hfits

end Editing

/-! ### What the editors do -/

section

variable {s : Select} {w : Window} {rule : Rule} {r : Routed}

/-- An editor that serves merging adds what it finds, when the rows of several placements are
merged and the statement needs it. -/
theorem Editor.runAll_of_many {e : Editor} (hmany : r.routing.isSingle = false)
    (happlies : e.applies rule r = true) : Editor.runAll rule r [e] = e.run rule r := by
  simp [Editor.runAll, Editor.isSkipped, hmany, happlies]

theorem Editor.runAll_of_not_applies {e : Editor} (happlies : e.applies rule r = false) :
    Editor.runAll rule r [e] = pure ⟨⟩ := by
  simp [Editor.runAll, Editor.isSkipped, happlies]

/-- **The rewritten statement asks for as many rows as the window needs.** -/
theorem Routed.asksFor (hselect : r.sql.statement = .select s)
    (hmany : r.routing.isSingle = false)
    (hw : s.window r.sql.parameters = .ok (some w)) (hrows : s.needsAllRows = false)
    (hfits : ∀ n ∈ w.rowCount, 0 ≤ n ∧ n ≤ Signed.greatest) :
    r.AsksFor rule w (w.shardRowCount? s) := by
  obtain ⟨hpagination, -, hgiven⟩ := Window.of_window hw
  have hoffset : Editor.applies rule r .offset = w.clause.offset.isSome := by
    rw [Editor.applies, hselect, Editor.ofSelect, hpagination, Option.bind_some]
  have hrowCount : Editor.applies rule r .rowCount = w.clause.rowCount.isSome := by
    rw [Editor.applies, hselect, Editor.ofSelect, hpagination, Option.bind_some]
  constructor
  case offset =>
    intro bound hbound
    rw [Option.mem_def] at hbound
    rw [Editor.runAll_of_many hmany (by rw [hoffset, hbound, Option.isSome_some]), Editor.run,
      Editor.edits, hselect, Editor.onSelect, Editing.shardOffset_eq hw, hbound]
    exact Editing.revisedTo_revise rfl rfl fun _ => rfl
  case rowCount =>
    intro bound hbound
    rw [Option.mem_def] at hbound
    rw [hbound, Option.isSome_some, Option.isSome_iff_exists] at hgiven
    obtain ⟨n, hn⟩ := hgiven
    obtain ⟨count, hcount, hnonneg, hgreatest, hadmitted⟩ :=
      Editing.writtenRowCount_spec hrows hbound hn (hfits n hn)
    refine ⟨_, hnonneg, hgreatest, ?_, ?_⟩
    · rw [Editor.runAll_of_many hmany (by rw [hrowCount, hbound, Option.isSome_some]), Editor.run,
        Editor.edits, hselect, Editor.onSelect, Editing.shardRowCount_eq hw, hbound, hcount]
      exact Editing.revisedTo_revise rfl rfl fun _ => rfl
    · rw [hcount, hadmitted]
      rfl
  case fromFirst =>
    intro hnone
    exact Editor.runAll_of_not_applies (by rw [hoffset, hnone, Option.isSome_none])
  case toLast =>
    intro hnone
    have hwritten : w.written? = none := by simp only [Window.written?, hnone]
    exact ⟨Editor.runAll_of_not_applies (by rw [hrowCount, hnone, Option.isSome_none]),
      by rw [Window.shardRowCount?, hwritten, Option.map_none]⟩

end

/-! ### Rows in order -/

variable {s : Select} {w : Window} {keys : List SortKey} {cursors : List Cursor}

/-- What can be merged can be merged when each list ends earlier. -/
theorem CursorQueue.Mergeable.map_take {left : List (List Row)} (hm : Mergeable keys left)
    (k : Nat) : Mergeable keys (left.map (List.take k)) := by
  have hmem : ∀ row ∈ (left.map (List.take k)).flatten, row ∈ left.flatten := by
    intro row hrow
    obtain ⟨l, hl, hrowl⟩ := List.mem_flatten.1 hrow
    obtain ⟨l', hl', rfl⟩ := List.mem_map.1 hl
    exact List.mem_flatten.2 ⟨l', hl', List.mem_of_mem_take hrowl⟩
  refine ⟨fun l hl => ?_, fun row hrow => hm.wide row (hmem row hrow), fun k hk a ha b hb =>
    hm.unmixed k hk a (hmem a ha) b (hmem b hb)⟩
  obtain ⟨l', hl', rfl⟩ := List.mem_map.1 hl
  exact (hm.sorted l' hl').sublist (List.take_sublist k l')

/-- **The sort of the first rows of each list begins like the sort of all rows.** -/
theorem SortKey.take_sortRows {left : List (List Row)} (hm : Mergeable keys left) (k : Nat) :
    (sortRows keys (left.map (List.take k)).flatten).take k =
      (sortRows keys left.flatten).take k := by
  have hcut := hm.map_take k
  rw [sortRows_eq hcut.unmixed, sortRows_eq hm.unmixed]
  refine Sorting.take_mergeSort_flatten ?_ hcut.kindSorted hm.kindSorted
  simp [Function.comp_def, List.take_take]

/-- Cursors with their first rows only are before these rows. -/
theorem Cursor.upTo_fresh (count : Option Int)
    (hfresh : ∀ c ∈ cursors, c = Cursor.ofRows c.labels c.rest) :
    ∀ c ∈ cursors.map (Cursor.upTo count), c = Cursor.ofRows c.labels c.rest := by
  intro c hc
  obtain ⟨c', hc', rfl⟩ := List.mem_map.1 hc
  cases count with
  | none => exact hfresh c' hc'
  | some n =>
      rw [hfresh c' hc']
      rfl

theorem Cursor.map_rest_upTo (cursors : List Cursor) (n : Int) :
    (cursors.map (Cursor.upTo (some n))).map (·.rest) =
      (cursors.map (·.rest)).map (List.take n.toNat) := by
  rw [List.map_map, List.map_map]
  rfl

/-- The window of the first rows of each cursor in order is that of all rows in order. -/
theorem Window.select_sortRows_upTo (hrows : s.needsAllRows = false)
    (hm : Mergeable keys (cursors.map (·.rest)))
    (hfew : (cursors.map (·.rest)).flatten.length < Signed.greatest) :
    Mergeable keys ((cursors.map (Cursor.upTo (w.shardRowCount? s))).map (·.rest)) ∧
    ((cursors.map (Cursor.upTo (w.shardRowCount? s))).map (·.rest)).flatten.length <
      Signed.greatest ∧
    w.select
        (sortRows keys ((cursors.map (Cursor.upTo (w.shardRowCount? s))).map (·.rest)).flatten) =
      w.select (sortRows keys (cursors.map (·.rest)).flatten) := by
  cases hcount : w.shardRowCount? s with
  | none =>
      have hsame : cursors.map (Cursor.upTo none) = cursors := List.map_id cursors
      rw [hsame]
      exact ⟨hm, hfew, rfl⟩
  | some count =>
      rw [Cursor.map_rest_upTo]
      have hlength :=
        (Lists.sublist_flatten_map_take (cursors.map (·.rest)) count.toNat).length_le
      have hless : ((cursors.map (·.rest)).map (List.take count.toNat)).flatten.length <
          Signed.greatest := by omega
      refine ⟨hm.map_take _, hless, ?_⟩
      calc w.select (sortRows keys ((cursors.map (·.rest)).map (List.take count.toNat)).flatten)
          = w.select ((sortRows keys
              ((cursors.map (·.rest)).map (List.take count.toNat)).flatten).take count.toNat) := by
            refine (Window.select_take hrows hcount ?_).symm
            rw [sortRows, List.length_mergeSort]
            exact Int.le_of_lt hless
        _ = w.select ((sortRows keys (cursors.map (·.rest)).flatten).take count.toNat) := by
            rw [take_sortRows hm]
        _ = w.select (sortRows keys (cursors.map (·.rest)).flatten) := by
            refine Window.select_take hrows hcount ?_
            rw [sortRows, List.length_mergeSort]
            exact Int.le_of_lt hfew

/-- A window is cut out of rows that can all be read. -/
theorem MergedRows.Yields.cutOut {m : MergedRows} {rows : List Row} (h : m.Yields rows)
    {d : Dialect} (hstyle : d.style = w.clause.style) (hfew : rows.length < Signed.greatest) :
    ∃ merged, Merged.cutOut d w m = .ok merged ∧ merged.Yields (w.select rows) := by
  have hlength : (rows.map (Except.ok : Row → Outcome Row)).length < Signed.greatest := by
    rwa [List.length_map]
  rcases Merged.cutOut_cases h hstyle hlength with ⟨_, merged, _, hcut, hyields⟩ | ⟨_, _, hne⟩
  · refine ⟨merged, hcut, ?_⟩
    rw [Window.select_map] at hyields
    exact hyields
  · exact absurd List.map_take.symm (hne _)

namespace Select

/-- **The window of the rows that shards are asked for is the window of all rows**, when there are
no groups. -/
theorem pushdown_spec (rule : Rule) {r : Routed} {d : Dialect}
    (hselect : r.sql.statement = .select s) (hmany : r.routing.isSingle = false)
    (hw : s.window r.sql.parameters = .ok (some w))
    (hrows : s.needsAllRows = false) (hstyle : d.style = w.clause.style)
    (hfits : ∀ n ∈ w.rowCount, 0 ≤ n ∧ n ≤ Signed.greatest)
    (hfresh : ∀ c ∈ cursors, c = Cursor.ofRows c.labels c.rest)
    (hm : Mergeable keys (cursors.map (·.rest)))
    (hfew : (cursors.map (·.rest)).flatten.length < Signed.greatest) :
    r.AsksFor rule w (w.shardRowCount? s) ∧
    ∃ whole part merged, MergedRows.inOrder keys cursors = .ok whole ∧
      whole.Yields (sortRows keys (cursors.map (·.rest)).flatten) ∧
      MergedRows.inOrder keys (cursors.map (Cursor.upTo (w.shardRowCount? s))) = .ok part ∧
      Merged.cutOut d w part = .ok merged ∧
      merged.Yields (w.select (sortRows keys (cursors.map (·.rest)).flatten)) := by
  obtain ⟨hm', hfew', hwindow⟩ := Window.select_sortRows_upTo (w := w) hrows hm hfew
  obtain ⟨whole, hwhole, hrowsWhole⟩ := MergedRows.inOrder_yields hfresh hm
  obtain ⟨part, hpart, hrowsPart⟩ := MergedRows.inOrder_yields (Cursor.upTo_fresh _ hfresh) hm'
  have hlength : (sortRows keys
      ((cursors.map (Cursor.upTo (w.shardRowCount? s))).map (·.rest)).flatten).length <
      Signed.greatest := by
    rwa [sortRows, List.length_mergeSort]
  obtain ⟨merged, hcut, hyields⟩ := hrowsPart.cutOut hstyle hlength
  rw [hwindow] at hyields
  exact ⟨Routed.asksFor hselect hmany hw hrows hfits, whole, part, merged, hwhole, hrowsWhole,
    hpart, hcut, hyields⟩

/-- `LIMIT 1, ?` with two rows: both shards are asked for their first three rows, the literal in the
text and the marker in the parameters, so that the last of the four rows of a shard is not asked
for. -/
theorem pushdown_spec_limit :
    let rule : Rule := ⟨[], [], [], ["ds_0", "ds_1"], none, {}, [], {}⟩
    let p : Pagination :=
      ⟨.limit, some ⟨.literal 1, 39, 39, false⟩, some ⟨.marker 0, 42, 42, false⟩⟩
    let s : Select := { orderBy := [.asc "n"], pagination := some p }
    let r : Routed := ⟨⟨"SELECT * FROM t_order ORDER BY n LIMIT 1, ?", .select s, [.int 2]⟩,
      .ofPlacements [⟨⟨"ds_0", "ds_0"⟩, []⟩, ⟨⟨"ds_1", "ds_1"⟩, []⟩], none⟩
    let d : Draft := Draft.start rule r
    (∃ e, (Editor.runAll rule r [.offset]).run.run d = (.ok ⟨⟩, ⟨[e], d.binding⟩) ∧
      e.start = 39 ∧ e.stop? = some 39 ∧ e.render none = "0") ∧
    (Editor.runAll rule r [.rowCount]).run.run d =
      (.ok ⟨⟩, ⟨[], .whole ⟨[⟨.int 3, []⟩], []⟩⟩) ∧
    ∃ part merged, MergedRows.inOrder [⟨0, .asc, none⟩]
        [.ofRows ["n"] [[.int 1], [.int 2], [.int 3]],
          .ofRows ["n"] [[.int 3], [.int 4], [.int 5]]] = .ok part ∧
      Merged.cutOut .mySql ⟨p, some 1, some 2⟩ part = .ok merged ∧
      merged.Yields [[.int 2], [.int 3]] := by
  intro rule p s r d
  have hsorted : sortRows [⟨0, .asc, none⟩]
      [[.int 1], [.int 2], [.int 3], [.int 3], [.int 4], [.int 5], [.int 6]] =
      [[.int 1], [.int 2], [.int 3], [.int 3], [.int 4], [.int 5], [.int 6]] :=
    List.mergeSort_of_pairwise (by decide)
  have hfresh : ∀ c ∈ [Cursor.ofRows ["n"] [[.int 1], [.int 2], [.int 3]],
      .ofRows ["n"] [[.int 3], [.int 4], [.int 5], [.int 6]]],
      c = Cursor.ofRows c.labels c.rest := by
    simp [Cursor.ofRows]
  have hm : Mergeable [⟨0, .asc, none⟩]
      [[[.int 1], [.int 2], [.int 3]], [[.int 3], [.int 4], [.int 5], [.int 6]]] :=
    { sorted := by decide, wide := by decide, unmixed := by unfold Unmixed; decide }
  have hw : s.window r.sql.parameters = .ok (some ⟨p, some 1, some 2⟩) := rfl
  obtain ⟨hasks, whole, part, merged, -, -, hpart, hcut, hyields⟩ := pushdown_spec
    rule (d := .mySql) rfl rfl hw rfl rfl (by simp [Signed.greatest]) hfresh hm
    (by decide)
  obtain ⟨e, hrun, hstart, hstop, hrender⟩ := (hasks.offset _ rfl).literal 1 rfl d
  obtain ⟨n, hnonneg, -, hrevised, hadmitted⟩ := hasks.rowCount _ rfl
  have hn : n = 3 := by
    have hthree : 3 = n.toNat := Option.some.inj hadmitted
    omega
  subst hn
  simp only [Cursor.ofRows, List.map_cons, List.map_nil, List.flatten_cons, List.flatten_nil,
    List.cons_append, List.nil_append, hsorted] at hyields
  exact ⟨⟨e, hrun, hstart, hstop, hrender none⟩, hrevised.marker 0 rfl [] [⟨.int 2, []⟩] [] _ rfl,
    part, merged, hpart, hcut, hyields⟩

end Select

end ShardedSql
