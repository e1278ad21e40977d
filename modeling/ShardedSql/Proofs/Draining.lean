/-
**Reading merged rows to the end.**

Whoever reads merged rows moves on until there is no row or moving on fails, and looks at the values
in between.  So all that merged rows are is a list of what moving on offers: rows, and possibly a
fault behind which nothing is read.  Two merged results with one such list cannot be told apart.

Main definitions:

* `ShardedSql.Offering` — what is offered by moving on, for anything that is read row by row;
* `ShardedSql.MergedRows.Offers`, `ShardedSql.Merged.Offers` — the same of merged rows and of merged
  results, where `Yields` says that only rows are offered;
* `ShardedSql.MergedRows.inOrder` — rows in order, or chained when there are no sort keys.

Main results:

* `ShardedSql.Offering.eq_of_ok` — **what is offered is determined** when reading does not fail;
* `ShardedSql.MergedRows.yields_held`, `ShardedSql.MergedRows.yields_chained` — rows that were made
  at once come as they are, and chained cursors one after another;
* `ShardedSql.MergedRows.inOrder_yields` — **rows in order are the stable sort of all rows**.
-/

import ShardedSql.Proofs.CursorQueue

set_option relaxedAutoImplicit false
set_option autoImplicit false

namespace ShardedSql

open SortKey

/-- A row is determined by the values of its columns. -/
theorem rowValue_injective {a b : Row} (h : ∀ column, rowValue a column = rowValue b column) :
    a = b := by
  refine List.ext_getElem? fun i => ?_
  have hi := h i
  unfold rowValue at hi
  cases ha : a[i]? with
  | none =>
      cases hb : b[i]? with
      | none => rfl
      | some v =>
          rw [ha, hb] at hi
          cases hi
  | some u =>
      cases hb : b[i]? with
      | none =>
          rw [ha, hb] at hi
          cases hi
      | some v =>
          rw [ha, hb] at hi
          exact congrArg some (Except.ok.inj hi)

/-! ### What moving on offers -/

/-- What is offered by moving on: row after row, until there is none or moving on fails.  Nothing
behind a failure is reached. -/
inductive Offering {σ : Type} (next : σ → Outcome Bool × σ) (shows : σ → Row → Prop) :
    σ → List (Outcome Row) → Prop
  | done {s : σ} (hnext : (next s).1 = .ok false) : Offering next shows s []
  | row {s : σ} {row : Row} {rest : List (Outcome Row)} (hnext : (next s).1 = .ok true)
      (hrow : shows (next s).2 row) (hrest : Offering next shows (next s).2 rest) :
      Offering next shows s (.ok row :: rest)
  | fault {s : σ} {f : Fault} {rest : List (Outcome Row)} (hnext : (next s).1 = .error f) :
      Offering next shows s (.error f :: rest)

namespace Offering

variable {σ τ : Type} {next : σ → Outcome Bool × σ} {shows : σ → Row → Prop} {s : σ}
  {outs : List (Outcome Row)} {rows : List Row}

/-- **If reading to the end gives some rows, then these are what is offered.** -/
theorem eq_of_ok (hshows : ∀ s a b, shows s a → shows s b → a = b)
    (h : Offering next shows s outs) (hrows : Offering next shows s (rows.map .ok)) :
    outs = rows.map .ok := by
  induction h generalizing rows with
  | done hnext =>
      cases rows with
      | nil => rfl
      | cons row rows =>
          cases hrows with
          | row hnext' => simp [hnext] at hnext'
  | row hnext hrow _ ih =>
      cases rows with
      | nil =>
          cases hrows with
          | done hnext' => simp [hnext] at hnext'
      | cons row rows =>
          cases hrows with
          | row _ hrow' hrest => rw [ih hrest, hshows _ _ _ hrow hrow', List.map_cons]
  | fault hnext =>
      cases rows with
      | nil =>
          cases hrows with
          | done hnext' => simp [hnext] at hnext'
      | cons row rows =>
          cases hrows with
          | row hnext' => simp [hnext] at hnext'

/-- What is read through another state is offered there as well. -/
theorem map {next' : τ → Outcome Bool × τ} {shows' : τ → Row → Prop} (f : σ → τ)
    (hnext : ∀ s, next' (f s) = ((next s).1, f (next s).2))
    (hshows : ∀ s row, shows s row → shows' (f s) row) (h : Offering next shows s outs) :
    Offering next' shows' (f s) outs := by
  induction h with
  | done hn => exact .done (by rw [hnext, hn])
  | row hn hrow _ ih =>
      refine .row (by rw [hnext, hn]) ?_ ?_
      · rw [hnext]
        exact hshows _ _ hrow
      · rw [hnext]
        exact ih
  | fault hn => exact .fault (by rw [hnext, hn])

end Offering

namespace MergedRows

/-- The values of a row can be read. -/
def Shows (m : MergedRows) (row : Row) : Prop := ∀ column, m.value column = rowValue row column

/-- What merged rows offer. -/
def Offers (m : MergedRows) (outs : List (Outcome Row)) : Prop :=
  Offering MergedRows.next Shows m outs

/-- Reading to the end does not fail, and gives some rows. -/
def Yields (m : MergedRows) (rows : List Row) : Prop := m.Offers (rows.map .ok)

theorem Shows.unique {m : MergedRows} {a b : Row} (ha : m.Shows a) (hb : m.Shows b) : a = b :=
  rowValue_injective fun column => (ha column).symm.trans (hb column)

/-- **What is read to the end is what is offered.** -/
theorem Offers.eq_of_yields {m : MergedRows} {outs : List (Outcome Row)} {rows : List Row}
    (h : m.Offers outs) (hrows : m.Yields rows) : outs = rows.map .ok :=
  Offering.eq_of_ok (fun _ _ _ ha hb => ha.unique hb) h hrows

end MergedRows

namespace Merged

/-- The values of a row can be read. -/
def Shows (m : Merged) (row : Row) : Prop := ∀ column, m.value column = rowValue row column

/-- What a merged result offers. -/
def Offers (m : Merged) (outs : List (Outcome Row)) : Prop := Offering Merged.next Shows m outs

/-- Reading to the end does not fail, and gives some rows. -/
def Yields (m : Merged) (rows : List Row) : Prop := m.Offers (rows.map .ok)

theorem Shows.unique {m : Merged} {a b : Row} (ha : m.Shows a) (hb : m.Shows b) : a = b :=
  rowValue_injective fun column => (ha column).symm.trans (hb column)

/-- **What is read to the end is what is offered.** -/
theorem Offers.eq_of_yields {m : Merged} {outs : List (Outcome Row)} {rows : List Row}
    (h : m.Offers outs) (hrows : m.Yields rows) : outs = rows.map .ok :=
  Offering.eq_of_ok (fun _ _ _ ha hb => ha.unique hb) h hrows

/-- The values of the current row do not depend on a cut. -/
theorem shows_rows {m : MergedRows} {row : Row} (h : m.Shows row) (cut : Option Cut) :
    ({ rows := m, cut := cut } : Merged).Shows row := by
  intro column
  have hv : ({ rows := m, cut := cut } : Merged).value column =
      (m.value column >>= fun v => pure v) := by
    simp only [value, List.getElem?_nil, Option.join_none]
  rw [hv, h column]
  cases rowValue row column <;> rfl

/-- Without a cut and without encryptors merged rows are offered as they are. -/
theorem offers_rows {m : MergedRows} {outs : List (Outcome Row)} (h : m.Offers outs) :
    ({ rows := m } : Merged).Offers outs :=
  Offering.map (fun m : MergedRows => ({ rows := m } : Merged)) (fun _ => rfl)
    (fun _ _ hrow => shows_rows hrow none) h

end Merged

/-! ### Rows that were made at once -/

namespace MergedRows

theorem yields_held (rows : List Row) (current : Option Row) (cursors : List Cursor) :
    (held rows current cursors).Yields rows := by
  induction rows generalizing current with
  | nil => exact .done rfl
  | cons row rows ih => exact .row rfl (fun _ => rfl) (ih (some row))

/-! ### Chained cursors -/

/-- The rows that are left in the cursors from the one with a number on. -/
def leftFrom (cursors : List Cursor) (i : Nat) : List Row := (cursors.drop i).flatMap (·.rest)

theorem leftFrom_eq_append {cursors : List Cursor} {i : Nat} {c : Cursor}
    (h : cursors[i]? = some c) : leftFrom cursors i = c.rest ++ leftFrom cursors (i + 1) := by
  obtain ⟨hlt, hc⟩ := List.getElem?_eq_some_iff.1 h
  rw [leftFrom, List.drop_eq_getElem_cons hlt, hc, List.flatMap_cons, leftFrom]

/-- What another cursor is does not matter to those behind it. -/
theorem leftFrom_set (cursors : List Cursor) (i : Nat) (c : Cursor) :
    leftFrom (cursors.set i c) (i + 1) = leftFrom cursors (i + 1) := by
  rw [leftFrom, List.drop_set_of_lt (Nat.lt_succ_self i), leftFrom]

/-- Moving on in chained cursors gives the first row that is left, unless none is. -/
theorem chainNext_spec (n : Nat) (cursors : List Cursor) (i : Nat)
    (hplan : ∀ c ∈ cursors, c.plan = .none) (hn : cursors.length < n + i) :
    (leftFrom cursors i = [] ∧ (chainNext n cursors i).1 = .ok false) ∨
      ∃ row cursors' i', chainNext n cursors i = (.ok true, .chained cursors' i') ∧
        (∀ c ∈ cursors', c.plan = .none) ∧ (chained cursors' i').Shows row ∧
        leftFrom cursors i = row :: leftFrom cursors' i' := by
  induction n generalizing cursors i with
  | zero =>
      have hdrop : cursors.drop i = [] := List.drop_eq_nil_of_le (by omega)
      exact .inl ⟨by rw [leftFrom, hdrop, List.flatMap_nil], rfl⟩
  | succ n ih =>
      cases hget : cursors[i]? with
      | none =>
          have hdrop : cursors.drop i = [] :=
            List.drop_eq_nil_of_le (List.getElem?_eq_none_iff.1 hget)
          exact .inl ⟨by rw [leftFrom, hdrop, List.flatMap_nil], by simp only [chainNext, hget]⟩
      | some c =>
          have hc := hplan c (List.mem_of_getElem? hget)
          have hset : ∀ d : Cursor, d.plan = .none → ∀ e ∈ cursors.set i d, e.plan = .none := by
            intro d hd e he
            rcases List.mem_or_eq_of_mem_set he with he | rfl
            · exact hplan e he
            · exact hd
          have hlt := (List.getElem?_eq_some_iff.1 hget).1
          rw [leftFrom_eq_append hget]
          cases hrest : c.rest with
          | nil =>
              -- the cursor is used up, so that the next one is read
              simp only [chainNext, hget, Cursor.advance_nil hc hrest, List.nil_append]
              rw [← leftFrom_set cursors i { c with nexts := c.nexts + 1, current := none }]
              exact ih _ (i + 1) (hset _ hc) (by rw [List.length_set]; omega)
          | cons row rest =>
              simp only [chainNext, hget, Cursor.advance_cons hc hrest]
              refine .inr ⟨row, _, _, rfl, hset _ hc, fun column => ?_, ?_⟩
              · simp only [value, List.getElem?_set_self hlt]
                exact Cursor.cell_eq_rowValue
                  (c := { c with nexts := c.nexts + 1, current := some row, rest := rest }) hc rfl
                  column
              · rw [leftFrom_eq_append (List.getElem?_set_self hlt), leftFrom_set]
                rfl

/-- **Chained cursors give the rows of one after those of another.** -/
theorem yields_chained (cursors : List Cursor) (i : Nat) (hplan : ∀ c ∈ cursors, c.plan = .none) :
    (chained cursors i).Yields (leftFrom cursors i) := by
  generalize hrows : leftFrom cursors i = rows
  induction rows generalizing cursors i with
  | nil =>
      rcases chainNext_spec (cursors.length + 1) cursors i hplan (by omega) with
        ⟨-, hnext⟩ | ⟨row, cursors', i', -, -, -, hleft⟩
      · exact .done hnext
      · rw [hrows] at hleft
        cases hleft
  | cons row rows ih =>
      rcases chainNext_spec (cursors.length + 1) cursors i hplan (by omega) with
        ⟨hnil, -⟩ | ⟨row', cursors', i', hnext, hplan', hshows, hleft⟩
      · rw [hrows] at hnil
        cases hnil
      · rw [hrows] at hleft
        obtain ⟨rfl, hrest⟩ := List.cons.inj hleft
        have hmoved : (chained cursors i).next = (.ok true, .chained cursors' i') := hnext
        exact .row (by rw [hmoved]) (by rw [hmoved]; exact hshows)
          (by rw [hmoved]; exact ih cursors' i' hplan' hrest.symm)

end MergedRows

/-! ### Rows in order -/

/-- What a queue offers is the sort of what is left in it. -/
theorem CursorQueue.Reading.offers {keys : List SortKey} {q : CursorQueue} {left : List (List Row)}
    (h : Reading keys q left) :
    Offering CursorQueue.next StandsOn q ((sortRows keys left.flatten).map .ok) := by
  generalize hrows : sortRows keys left.flatten = rows
  induction rows generalizing q left with
  | nil =>
      rcases next_spec h with ⟨-, hnext, -⟩ | ⟨row, left', -, -, -, hsort⟩
      · exact .done hnext
      · rw [hrows] at hsort
        cases hsort
  | cons row rows ih =>
      rcases next_spec h with ⟨hnil, -, -⟩ | ⟨row', left', hnext, hstands, hread, hsort⟩
      · rw [hnil, sortRows, List.mergeSort_nil] at hrows
        cases hrows
      · rw [hrows] at hsort
        obtain ⟨rfl, hrest⟩ := List.cons.inj hsort
        exact .row hnext hstands (ih hread hrest.symm)

/-- Without sort keys rows stay as they are. -/
theorem SortKey.sortRows_nil (rows : List Row) : sortRows [] rows = rows :=
  List.mergeSort_of_pairwise (List.pairwise_of_forall fun _ _ => rfl)

namespace MergedRows

/-- Cursors that are started without a fault are merged in order. -/
theorem order_of_start {keys : List SortKey} {cursors : List Cursor}
    (h : (CursorQueue.start keys cursors).1 = .ok ()) :
    order keys cursors = .ok (.ordered (CursorQueue.start keys cursors).2) := by
  have hpair : CursorQueue.start keys cursors = (.ok (), (CursorQueue.start keys cursors).2) :=
    Prod.ext h rfl
  rw [order, hpair]

/-- Rows in order, or those of one cursor after those of another when there are no sort keys. -/
def inOrder (keys : List SortKey) (cursors : List Cursor) : Except MergeFailure MergedRows :=
  if keys.isEmpty then .ok (.chained cursors 0) else order keys cursors

/-- A statement without groups and without equal rows returned once has its rows in order. -/
theorem ofCursors_eq_inOrder {s : Select} {labels : List String} {keys : List SortKey}
    (cursors : List Cursor) (hgroups : s.groupBy = []) (haggregation : s.hasAggregation = false)
    (hdistinct : s.projections.distinctRows = false)
    (hkeys : SortKey.ofItems s labels s.order = .ok keys) :
    ofCursors s labels cursors = inOrder keys cursors := by
  simp only [ofCursors, hkeys, hgroups, haggregation, hdistinct, inOrder]
  rfl

/-- **Rows in order are the stable sort of all rows.** -/
theorem inOrder_yields {keys : List SortKey} {cursors : List Cursor}
    (hfresh : ∀ c ∈ cursors, c = Cursor.ofRows c.labels c.rest)
    (hm : CursorQueue.Mergeable keys (cursors.map (·.rest))) :
    ∃ m, inOrder keys cursors = .ok m ∧
      m.Yields (sortRows keys (cursors.map (·.rest)).flatten) := by
  unfold inOrder
  split
  · rename_i hnil
    cases List.isEmpty_iff.1 hnil
    refine ⟨_, rfl, ?_⟩
    rw [SortKey.sortRows_nil, ← List.flatMap_def]
    exact yields_chained cursors 0 fun c hc => Cursor.plan_of_eq_ofRows (hfresh c hc)
  · obtain ⟨hok, hread⟩ := CursorQueue.reading_start hfresh hm
    refine ⟨_, order_of_start hok, ?_⟩
    exact hread.offers.map MergedRows.ordered (fun _ => rfl) fun _ _ h column => h.value_eq column

end MergedRows

end ShardedSql
