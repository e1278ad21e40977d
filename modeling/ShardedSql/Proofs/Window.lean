/-
**Windows cut out of merged rows.**

A window skips some rows and ends after others.  It is cut out of merged rows by moving on as often
as rows are skipped and by counting the rows behind these.  The count is a word of 64 bits, so that
it is exact as long as there are fewer rows than the greatest word.

Main definitions:

* `ShardedSql.Dialect.style` — the style of the windows that a dialect cuts out;
* `ShardedSql.Window.select` — **the part of some rows that a window is**;
* `ShardedSql.Window.stop?` — the number of its last row.

Main results:

* `ShardedSql.Window.select_eq` — a window is what is left of its first rows without those skipped;
* `ShardedSql.Cut.skip_cases` — skipping rows fails exactly if one of them cannot be read;
* `ShardedSql.Merged.cutOut_cases` — **a window that is cut out of merged rows offers its part of
  what they offer**.
-/

import ShardedSql.Proofs.Draining

set_option relaxedAutoImplicit false
set_option autoImplicit false

namespace ShardedSql

/-- The style of the windows that a dialect cuts out of merged rows. -/
def Dialect.style : Dialect → PaginationStyle
  | .mySql => .limit
  | .postgreSql => .limit
  | .h2 => .limit
  | .oracle => .rowNumber
  | .sqlServer => .top

/-! ### The part of the rows that a window is -/

namespace Window

variable {α β : Type}

/-- How many rows the window has at most.  A limit counts the rows behind those that are skipped; a
bound on the number of a row counts all rows. -/
def size? (w : Window) : Option Int :=
  w.written?.map fun n =>
    match w.clause.style with
    | .limit => n
    | .rowNumber => n - w.skipped
    | .top => n - w.skipped

/-- The part of some rows that the window is. -/
def select (w : Window) (rows : List α) : List α :=
  match w.size? with
  | none => rows.drop w.skipped.toNat
  | some n => (rows.drop w.skipped.toNat).take n.toNat

/-- The number of the last row of the window, when there is one. -/
def stop? (w : Window) : Option Int :=
  w.written?.map fun n =>
    match w.clause.style with
    | .limit => w.skipped + n
    | .rowNumber => n
    | .top => n

theorem skipped_nonneg (w : Window) : 0 ≤ w.skipped := by
  unfold skipped
  split
  · exact Int.le_max_right ..
  · exact Int.le_refl 0

theorem size?_eq (w : Window) : w.size? = w.stop?.map fun n => n - w.skipped := by
  unfold size? stop?
  cases w.written? with
  | none => rfl
  | some n =>
      cases w.clause.style with
      | limit =>
          have hsize : w.skipped + n - w.skipped = n := by omega
          simp only [Option.map_some, hsize]
      | rowNumber => rfl
      | top => rfl

/-- A window is what is left of the rows up to its last one without those that are skipped. -/
theorem select_eq (w : Window) (rows : List α) :
    w.select rows =
      match w.stop? with
      | none => rows.drop w.skipped.toNat
      | some n => (rows.take n.toNat).drop w.skipped.toNat := by
  have hskipped := w.skipped_nonneg
  rw [select, size?_eq]
  cases w.stop? with
  | none => rfl
  | some n =>
      have hlength : (n - w.skipped).toNat = n.toNat - w.skipped.toNat := by omega
      simp only [Option.map_some, hlength, List.drop_take]

theorem select_map (w : Window) (f : α → β) (rows : List α) :
    w.select (rows.map f) = (w.select rows).map f := by
  unfold select
  cases w.size? with
  | none => simp only [List.map_drop]
  | some n => simp only [List.map_take, List.map_drop]

end Window

/-! ### Skipping rows -/

namespace Cut

variable {m : MergedRows} {outs : List (Outcome Row)}

/-- Skipping rows succeeds when all of them can be read, and tells whether there are fewer; it fails
when one of them cannot be read. -/
theorem skip_cases (h : m.Offers outs) (n : Nat) :
    (∃ (rows : List Row) (m' : MergedRows), outs.take n = rows.map .ok ∧
      skip n m = (.ok (decide (outs.length < n)), m') ∧
      (n ≤ outs.length → m'.Offers (outs.drop n))) ∨
    ∃ (f : Fault) (m' : MergedRows), skip n m = (.error f, m') ∧
      ∀ rows : List Row, outs.take n ≠ rows.map .ok := by
  induction n generalizing m outs with
  | zero => exact .inl ⟨[], m, rfl, rfl, fun _ => h⟩
  | succ n ih =>
      rw [skip]
      cases h with
      | done hnext =>
          have hpair : m.next = (.ok false, m.next.2) := Prod.ext hnext rfl
          rw [hpair]
          exact .inl ⟨[], m.next.2, rfl, by simp, fun hn => by simp at hn⟩
      | row hnext hrow hrest =>
          rename_i row rest
          have hpair : m.next = (.ok true, m.next.2) := Prod.ext hnext rfl
          rw [hpair]
          rcases ih hrest with ⟨rows, m'', htake, hskip, hoffers⟩ | ⟨f, m'', hskip, hne⟩
          · refine .inl ⟨row :: rows, m'', ?_, ?_, ?_⟩
            · rw [List.take_succ_cons, htake, List.map_cons]
            · simp only [hskip, List.length_cons, Nat.add_lt_add_iff_right]
            · intro hn
              exact hoffers (Nat.le_of_succ_le_succ hn)
          · refine .inr ⟨f, m'', hskip, fun rows hrows => ?_⟩
            cases rows with
            | nil => cases hrows
            | cons r rows => exact hne rows (List.cons.inj hrows).2
      | fault hnext =>
          rename_i f rest
          have hpair : m.next = (.error f, m.next.2) := Prod.ext hnext rfl
          rw [hpair]
          refine .inr ⟨f, m.next.2, rfl, fun rows hrows => ?_⟩
          cases rows with
          | nil => cases hrows
          | cons r rows => cases (List.cons.inj hrows).1

/-- The part of what is offered that is inside the cut. -/
def keep (c : Cut) (outs : List (Outcome Row)) : List (Outcome Row) :=
  match c.last with
  | none => outs
  | some last => outs.take (last + 1 - c.number).toNat

end Cut

/-! ### Counting rows -/

namespace Merged

variable {m : MergedRows} {outs : List (Outcome Row)}

/-- A cut that is not exhausted offers what is offered up to its last row, when no number up to that
row is too large to be counted. -/
theorem offers_cut (h : m.Offers outs) (c : Cut) (hopen : c.exhausted = false)
    (hnumber : 0 ≤ c.number)
    (hfew : (∀ last ∈ c.last, last < Signed.greatest) ∨
      c.number + outs.length ≤ Signed.greatest) :
    ({ rows := m, cut := some c } : Merged).Offers (c.keep outs) := by
  obtain ⟨last, number, exhausted⟩ := c
  cases hopen
  simp only at hnumber hfew
  cases last with
  | none =>
      -- without a last row moving on is moving on in the rows
      refine Offering.map (fun m : MergedRows => ({ rows := m, cut := some ⟨none, number, false⟩ } :
        Merged)) (fun m => rfl) (fun m row hrow => shows_rows hrow _) h
  | some last =>
      simp only [Option.mem_def, Option.some.injEq, forall_eq'] at hfew
      induction h generalizing number with
      | done hnext =>
          simp only [Cut.keep, List.take_nil]
          refine .done ?_
          simp only [next, Cut.next]
          split
          · contradiction
          · split <;> simp [hnext]
      | row hnext hrow hrest ih =>
          rename_i m row rest
          by_cases hle : number ≤ last
          · have hheld : Signed.held (number + 1) = number + 1 := by
              refine Signed.held_of_fits ?_
              simp only [Signed.least, List.length_cons] at hfew ⊢
              omega
            have hmoved : ({ rows := m, cut := some ⟨some last, number, false⟩ } : Merged).next =
                (m.next.1, { rows := m.next.2, cut := some ⟨some last, number + 1, false⟩ }) := by
              simp [next, Cut.next, hle, hheld]
            have hcount : (last + 1 - number).toNat = (last + 1 - (number + 1)).toNat + 1 := by
              omega
            simp only [Cut.keep, hcount, List.take_succ_cons]
            refine .row (by rw [hmoved, hnext]) ?_ ?_
            · rw [hmoved]
              exact shows_rows hrow _
            · rw [hmoved]
              refine ih (number + 1) (by omega) ?_
              rw [List.length_cons] at hfew
              exact hfew.imp_right fun hfew => by omega
          · have hcount : (last + 1 - number).toNat = 0 := by omega
            simp only [Cut.keep, hcount, List.take_zero]
            exact .done (by simp [next, Cut.next, hle])
      | fault hnext =>
          rename_i m f rest
          by_cases hle : number ≤ last
          · have hcount : (last + 1 - number).toNat = (last + 1 - (number + 1)).toNat + 1 := by
              omega
            simp only [Cut.keep, hcount, List.take_succ_cons]
            exact .fault (by simp [next, Cut.next, hle, hnext])
          · have hcount : (last + 1 - number).toNat = 0 := by omega
            simp only [Cut.keep, hcount, List.take_zero]
            exact .done (by simp [next, Cut.next, hle])

/-- When rows are left behind those that are skipped, the cut of a window keeps what the window
selects. -/
theorem keep_drop_eq_select {d : Dialect} {w : Window} (hstyle : d.style = w.clause.style)
    (hskipped : w.skipped < Signed.greatest) :
    (⟨w.written?, firstNumber d w, false⟩ : Cut).keep (outs.drop w.skipped.toNat) =
      w.select outs := by
  have hnonneg := w.skipped_nonneg
  have hheld : Signed.held (w.skipped + 1) = w.skipped + 1 := by
    refine Signed.held_of_fits ?_
    simp only [Signed.least]
    omega
  unfold Cut.keep Window.select Window.size?
  rw [← hstyle]
  cases w.written? with
  | none => rfl
  | some n =>
      cases d <;> simp only [Option.map_some, Dialect.style, firstNumber, hheld,
        Int.add_sub_cancel, Int.add_sub_add_right]

/-- **A window is cut out of merged rows exactly if the rows that it skips can be read, and then it
offers its part of what they offer.** -/
theorem cutOut_cases {d : Dialect} {w : Window} (h : m.Offers outs)
    (hstyle : d.style = w.clause.style) (hfew : outs.length < Signed.greatest) :
    (∃ (rows : List Row) (merged : Merged), outs.take w.skipped.toNat = rows.map .ok ∧
      cutOut d w m = .ok merged ∧ merged.Offers (w.select outs)) ∨
    ∃ e : MergeFailure, cutOut d w m = .error e ∧
      ∀ rows : List Row, outs.take w.skipped.toNat ≠ rows.map .ok := by
  have hnonneg := w.skipped_nonneg
  rcases Cut.skip_cases h w.skipped.toNat with
    ⟨rows, m', htake, hskip, hoffers⟩ | ⟨f, m', hskip, hne⟩
  · refine .inl ⟨rows, _, htake, by rw [cutOut, hskip], ?_⟩
    by_cases hshort : outs.length < w.skipped.toNat
    · -- the rows ended before the window began
      have hselect : w.select outs = [] := by
        rw [Window.select, List.drop_eq_nil_of_le (by omega)]
        cases w.size? with
        | none => rfl
        | some n => exact List.take_nil
      rw [hselect]
      exact .done (by simp [next, Cut.next, hshort])
    · rw [decide_eq_false hshort]
      rw [← keep_drop_eq_select hstyle (by omega)]
      have hfirst : 0 ≤ firstNumber d w ∧ firstNumber d w ≤ w.skipped + 1 := by
        cases d <;> simp only [firstNumber, Signed.held, Signed.least] <;> omega
      refine offers_cut (hoffers (by omega)) _ rfl hfirst.1 (.inr ?_)
      rw [List.length_drop]
      simp only
      omega
  · exact .inr ⟨⟨f, m'.cursors⟩, by rw [cutOut, hskip], hne⟩

end Merged

end ShardedSql
