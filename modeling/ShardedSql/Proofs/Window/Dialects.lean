/-
**What the dialects make of a limit.**

How many rows a window has is read in two ways.  Shards are asked for rows by the style of the
window: a limit is asked for as the rows that are skipped and those behind them.  From the merged
rows it is cut by the dialect alone: where windows are bounds on the number of a row, the number of
rows of a limit is taken for such a bound, and the rows that are skipped are counted against it.

So a limit is what was asked for where the dialect has limits.  Elsewhere it is short by the rows
that are skipped, unless there are none of them or too few behind them for the difference to show.

Main definitions:

* `ShardedSql.Dialect.page` — the rows that a dialect leaves of a limit.

Main results:

* `ShardedSql.Dialect.page_eq_iff` — **when these are the rows that were asked for**;
* `ShardedSql.MergedRows.Yields.cutLimit` — a limit is cut out of merged rows as the dialect has it;
* `ShardedSql.Merged.limit_spec` — **every merge without groups ends with these rows**.
-/

import ShardedSql.Proofs.Merging.Faultless
import ShardedSql.Proofs.Window

set_option relaxedAutoImplicit false
set_option autoImplicit false

namespace ShardedSql

/-! ### The rows of a limit -/

namespace Dialect

variable {α : Type}

/-- How many rows a dialect leaves of a limit of `n` rows behind `m`.  A bound on the number of a
row counts those that are skipped as well. -/
def limited (d : Dialect) (m n : Int) : Int :=
  match d.style with
  | .limit => n
  | .rowNumber => n - m
  | .top => n - m

/-- The rows that a dialect leaves of a limit of `n` rows behind `m`. -/
def page (d : Dialect) (m n : Int) (rows : List α) : List α :=
  (rows.drop m.toNat).take (d.limited m n).toNat

/-- **A dialect leaves the rows that were asked for** if its windows are limits, if no row is
skipped, if none is asked for, or if there are no more rows than one of the two numbers. -/
theorem page_eq_iff (d : Dialect) {m n : Int} (hm : 0 ≤ m) (hn : 0 ≤ n) (rows : List α) :
    d.page m n rows = (rows.drop m.toNat).take n.toNat ↔
      d.style = .limit ∨ m = 0 ∨ n = 0 ∨ rows.length ≤ max m n := by
  rw [page, List.take_eq_take_iff, List.length_drop, limited]
  cases d.style with
  | limit => simp
  | rowNumber =>
      simp only [reduceCtorEq, false_or]
      omega
  | top =>
      simp only [reduceCtorEq, false_or]
      omega

end Dialect

/-! ### Cutting a limit out -/

namespace Window

/-- The window of a limit whose bounds are resolved. -/
theorem of_limit {s : Select} {parameters : List Value} {offset count : PageBound} {m n : Int}
    (hpagination : s.pagination = some ⟨.limit, some offset, some count⟩)
    (hoffset : offset.resolve parameters = .ok m) (hcount : count.resolve parameters = .ok n) :
    s.window parameters = .ok (some ⟨⟨.limit, some offset, some count⟩, some m, some n⟩) := by
  have hresolve : resolve ⟨.limit, some offset, some count⟩ parameters =
      .ok ⟨⟨.limit, some offset, some count⟩, some m, some n⟩ := by
    simp only [resolve, Option.mapM_some, hoffset, hcount]
    rfl
  simp only [Select.window, hpagination, Option.mapM_some, hresolve]
  rfl

end Window

namespace MergedRows

/-- The number of the first row of a window, and how many rows there are up to the last. -/
theorem firstNumber_spec {d : Dialect} {w : Window} {n : Int} (hn : 0 ≤ n)
    (hfits : n < Signed.greatest ∨ w.skipped < Signed.greatest) :
    (n + 1 - Merged.firstNumber d w).toNat = (d.limited w.skipped n).toNat := by
  have hskipped := w.skipped_nonneg
  cases d <;> simp only [Merged.firstNumber, Dialect.limited, Dialect.style, Signed.held,
    Signed.least, Signed.greatest] at hfits ⊢ <;> omega

/-- **A limit is cut out of merged rows as the dialect has it.** -/
theorem Yields.cutLimit {whole : MergedRows} {rows : List Row} (h : whole.Yields rows)
    (d : Dialect) {w : Window} {n : Int} (hwritten : w.written? = some n) (hn : 0 ≤ n)
    (hfew : n < Signed.greatest ∨ rows.length < Signed.greatest) :
    ∃ merged, Merged.cutOut d w whole = .ok merged ∧ merged.encryptors = [] ∧
      merged.Yields (d.page w.skipped n rows) := by
  have hskipped := w.skipped_nonneg
  rcases Cut.skip_cases h w.skipped.toNat with ⟨_, m', _, hskip, hoffers⟩ | ⟨_, _, _, hne⟩
  · refine ⟨_, by rw [Merged.cutOut, hskip], rfl, ?_⟩
    rw [List.length_map] at hoffers ⊢
    by_cases hshort : rows.length < w.skipped.toNat
    · -- the rows ended before the window began
      rw [Dialect.page, List.drop_eq_nil_of_le (by omega), List.take_nil]
      exact .done (by simp [Merged.next, Cut.next, hshort])
    · have hfirst : 0 ≤ Merged.firstNumber d w ∧ Merged.firstNumber d w ≤ w.skipped + 1 := by
        cases d <;> simp only [Merged.firstNumber, Signed.held, Signed.least] <;> omega
      have hcut := Merged.offers_cut (hoffers (by omega))
        ⟨w.written?, Merged.firstNumber d w, false⟩ rfl hfirst.1 (by
          rw [hwritten, List.length_drop, List.length_map]
          refine hfew.imp (fun hlast last h => ?_) fun hrows => ?_
          · cases h
            exact hlast
          · simp only
            omega)
      rw [decide_eq_false hshort, Merged.Yields, Dialect.page, List.map_take, List.map_drop,
        ← firstNumber_spec hn (by omega)]
      rw [hwritten] at hcut ⊢
      exact hcut
  · exact absurd List.map_take.symm (hne _)

end MergedRows

namespace Merged

/-- Encryptors change the values of rows, but not which rows come. -/
theorem Yields.gives {m : Merged} {rows : List Row} (h : m.Yields rows)
    (hplain : m.encryptors = []) (encryptors : List (Option Encryptor)) :
    ({ m with encryptors := encryptors } : Merged).Gives rows := by
  have hnext (m : Merged) : m.next.2.encryptors = m.encryptors ∧
      ({ m with encryptors := encryptors } : Merged).next =
        (m.next.1, { m.next.2 with encryptors := encryptors }) := by
    unfold next
    cases m.cut <;> exact ⟨rfl, rfl⟩
  induction rows generalizing m with
  | nil =>
      cases h with
      | done hdone => exact .done (by rw [(hnext m).2]; exact hdone)
  | cons row rows ih =>
      cases h with
      | row hmoved hrow hrest =>
          have hkept : m.next.2.encryptors = [] := (hnext m).1.trans hplain
          refine .row (by rw [(hnext m).2]; exact hmoved) ?_ ?_
          · rw [(hnext m).2]
            intro column
            have hvalue := hrow column
            rw [value, hkept] at hvalue
            exact (bind_pure _).symm.trans hvalue
          · rw [(hnext m).2]
            exact ih hrest hkept

variable {s : Select} {parameters : List Value}

/-- **A limit of `n` rows behind `m` ends as the dialect has it**, in every merge of cursors without
groups; an open bound is the number of the first row that is not skipped.  The merge and the one
that it is cut from succeed, and the latter has all rows unless equal ones are returned once.  The
rows that are left are those that were asked for exactly if the dialect has limits, no row is
skipped, none is asked for, or there are no more rows than one of the two numbers. -/
theorem limit_spec (rule : Rule) (d : Dialect) {first second : Cursor} {rest : List Cursor}
    {keys : List SortKey} {offset count : PageBound} {m n : Int} (hgroups : s.groupBy = [])
    (haggregation : s.hasAggregation = false)
    (hkeys : SortKey.ofItems s first.labels s.order = .ok keys)
    (hpagination : s.pagination = some ⟨.limit, some offset, some count⟩)
    (hoffset : offset.resolve parameters = .ok (if offset.opened then m + 1 else m))
    (hcount : count.resolve parameters = .ok n) (hm : 0 ≤ m) (hn : 0 ≤ n)
    (hcursors : ∀ c ∈ first :: second :: rest, c.IsTable first.labels)
    (hfew : n < Signed.greatest ∨
      ((first :: second :: rest).map (·.rest)).flatten.length < Signed.greatest) :
    ∃ whole rows merged,
      MergedRows.ofCursors s first.labels (first :: second :: rest) = .ok whole ∧
      whole.Yields rows ∧
      (s.projections.distinctRows = false →
        rows.Perm ((first :: second :: rest).map (·.rest)).flatten) ∧
      ofCursors rule d (.select s) parameters (first :: second :: rest) = .ok merged ∧
      merged.Gives (d.page m n rows) ∧
      (d.page m n rows = (rows.drop m.toNat).take n.toNat ↔
        d.style = .limit ∨ m = 0 ∨ n = 0 ∨ rows.length ≤ max m n) := by
  obtain ⟨whole, rows, hwhole, hyields, hlength, hperm⟩ :=
    MergedRows.ofCursors_yields hgroups haggregation hkeys hcursors
  have hwindow := Window.of_limit hpagination hoffset hcount
  obtain ⟨w, hw⟩ : ∃ w : Window, w = ⟨⟨.limit, some offset, some count⟩,
      some (if offset.opened then m + 1 else m), some n⟩ := ⟨_, rfl⟩
  have hskipped : w.skipped = m := by
    simp only [hw, Window.skipped]
    split <;> omega
  have hwritten : w.written? = some n := by simp [hw, Window.written?]
  have hrows : n < Signed.greatest ∨ rows.length < Signed.greatest := by
    refine hfew.imp_right fun htotal => ?_
    have hcast := Int.ofNat_le.2 hlength
    exact Int.lt_of_le_of_lt hcast htotal
  obtain ⟨shown, hcut, hplain, hshown⟩ := hyields.cutLimit d hwritten hn hrows
  rw [hskipped] at hshown
  refine ⟨whole, rows, { shown with encryptors := encryptorsFor rule.encrypt s first.labels },
    hwhole, hyields, hperm, ?_, hshown.gives hplain _, d.page_eq_iff hm hn rows⟩
  rw [← hw] at hwindow
  have hgiven : w.isGiven = true := by simp [hw, Window.isGiven]
  have hshow : cutFor d s parameters whole = .ok shown := by
    rw [cutFor, hwindow]
    exact (if_pos hgiven).trans hcut
  simp only [ofCursors, ofSelect, hwhole, bind, Except.bind, hshow]
  rfl

/-- The second of the numbers of all orders: one row behind one that is skipped. -/
def secondId : Select where
  tables := [.ofName "t_order" 15]
  projections := { items := [.column none "id" none 7 8] }
  orderBy := [.asc "id"]
  pagination := some ⟨.limit, some (.ofLiteral 1 42 42), some (.ofLiteral 1 60 60)⟩

/-- Of two rows the second is asked for, and no row is left where the window is a bound. -/
theorem limit_spec_sqlServer :
    ∃ (rows : List Row) (merged : Merged), ofCursors plainRule .sqlServer (.select secondId) []
        [.ofRows ["id"] [[.int 1]], .ofRows ["id"] [[.int 2]]] = .ok merged ∧
      merged.Gives [] ∧ rows.Perm [[.int 1], [.int 2]] ∧ ((rows.drop 1).take 1).length = 1 := by
  have htable : ∀ c ∈ [Cursor.ofRows ["id"] [[.int 1]], .ofRows ["id"] [[.int 2]]],
      c.IsTable ["id"] := by
    intro c hc
    rw [List.mem_cons, List.mem_singleton] at hc
    rcases hc with rfl | rfl <;> exact ⟨rfl, rfl, by decide⟩
  have hkeys : SortKey.ofItems secondId ["id"] secondId.order = .ok [⟨0, .asc, none⟩] := rfl
  have hbound (start stop : Nat) : (PageBound.ofLiteral 1 start stop).resolve [] = .ok 1 := rfl
  have hpagination : secondId.pagination =
      some ⟨.limit, some (.ofLiteral 1 42 42), some (.ofLiteral 1 60 60)⟩ := rfl
  obtain ⟨-, rows, merged, -, -, hperm, hmerged, hgives, -⟩ := limit_spec plainRule .sqlServer rfl
    (by decide) hkeys hpagination (hbound 42 42) (hbound 60 60) (by decide) (by decide) htable
    (.inl (by decide))
  have hrows := hperm rfl
  have hlength := hrows.length_eq
  exact ⟨rows, merged, hmerged, hgives, hrows, by simp [hlength, Cursor.ofRows]⟩

/-- The second row is not left in a dialect in which windows are bounds on the number of a row. -/
theorem no_second_row :
    ∃ (rows : List Row) (whole : MergedRows) (merged : Merged),
      MergedRows.ofCursors secondId ["id"]
        [.ofRows ["id"] [[.int 1]], .ofRows ["id"] [[.int 2]]] = .ok whole ∧
      whole.Yields rows ∧ rows = [[.int 1], [.int 2]] ∧
      ofCursors plainRule .oracle (.select secondId) []
        [.ofRows ["id"] [[.int 1]], .ofRows ["id"] [[.int 2]]] = .ok merged ∧
      ¬ merged.Gives ((rows.drop 1).take 1) := by
  have hsorted : SortKey.sortRows [⟨0, .asc, none⟩] [[.int 1], [.int 2]] = [[.int 1], [.int 2]] :=
    List.mergeSort_of_pairwise (by decide)
  have hmergeable : CursorQueue.Mergeable [⟨0, .asc, none⟩] [[[.int 1]], [[.int 2]]] :=
    { sorted := by decide, wide := by decide, unmixed := by unfold SortKey.Unmixed; decide }
  have hfresh : ∀ c ∈ [Cursor.ofRows ["id"] [[.int 1]], .ofRows ["id"] [[.int 2]]],
      c = Cursor.ofRows c.labels c.rest := by simp [Cursor.ofRows]
  obtain ⟨whole, hwhole, hyields⟩ := MergedRows.inOrder_yields hfresh hmergeable
  refine ⟨_, whole, _, ?_, hyields, hsorted, rfl, ?_⟩
  · exact (MergedRows.ofCursors_eq_inOrder _ rfl (by decide) (by decide) rfl).trans hwhole
  · intro hgives
    simp only [Cursor.ofRows, List.map_cons, List.map_nil, List.flatten_cons, List.flatten_nil,
      List.cons_append, List.nil_append, hsorted] at hgives
    cases hgives with
    | row hmoved => cases hmoved

end Merged

end ShardedSql
