/-
**What the editors make of an insertion.**

Of the editors that an insertion with `VALUES` needs, one writes its rows anew.  The others edit
the name of the table and the list of columns, and leave the parameters as they are.

Main definitions:

* `ShardedSql.Edit.writesRows` — an edit of the rows of an insertion;
* `ShardedSql.Editor.Step` — what an editor makes of a draft;
* `ShardedSql.Editor.IsQuiet` — **an editor leaves the rows and the parameters alone**;
* `ShardedSql.Routed.draft` — what all editors make of a routed statement.

Main results:

* `ShardedSql.Editor.runAll_cons_eq_ok` — editors work one after another;
* `ShardedSql.Editor.isQuiet_of_ne` — all editors of an insertion but one are quiet;
* `ShardedSql.Routed.draft_of_insert` — **the rows are written anew once, and bound alike**.
-/

import ShardedSql.Editor
import ShardedSql.Proofs.Editing.Rows

set_option relaxedAutoImplicit false
set_option autoImplicit false

namespace ShardedSql

/-- The edit writes the rows of an insertion. -/
def Edit.writesRows : Edit → Bool
  | .insertRows _ _ _ => true
  | _ => false

namespace Editor

variable {rule : Rule} {r : Routed}

/-! ### One after another -/

/-- What an editor makes of a draft, if it is needed. -/
def Step (rule : Rule) (r : Routed) (e : Editor) (d d' : Draft) : Prop :=
  (e.isSkipped rule r = true ∧ d' = d) ∨
    e.isSkipped rule r = false ∧ ∃ found d₁,
      (e.edits rule r).run.run d = (.ok found, d₁) ∧ d' = { d₁ with edits := d₁.edits ++ found }

theorem runAll_cons_eq_ok {e : Editor} {rest : List Editor} {u : PUnit} {d d' : Draft}
    (h : (runAll rule r (e :: rest)).run.run d = (.ok u, d')) :
    ∃ d₁, e.Step rule r d d₁ ∧ (runAll rule r rest).run.run d₁ = (.ok u, d') := by
  unfold runAll at h
  simp only at h
  split at h
  · rename_i hneeded
    obtain ⟨v, d₁, hrun, h⟩ := Stateful.bind_eq_ok.1 h
    obtain ⟨found, d₂, hfound, hrun⟩ := Stateful.bind_eq_ok.1 hrun
    exact ⟨d₁, .inr ⟨by simpa using hneeded, found, d₂, hfound,
      (Stateful.modify_eq_ok.1 hrun).symm⟩, h⟩
  · rename_i hskipped
    exact ⟨d, .inl ⟨by simpa using hskipped, rfl⟩, h⟩

/-- An editor leaves the rows and the parameters alone. -/
def IsQuiet (rule : Rule) (r : Routed) (e : Editor) : Prop :=
  ∀ d d', e.Step rule r d d' →
    d'.binding = d.binding ∧ d'.edits.filter Edit.writesRows = d.edits.filter Edit.writesRows

theorem runAll_append_of_isQuiet {quiet rest : List Editor}
    (hquiet : ∀ e ∈ quiet, IsQuiet rule r e) {u : PUnit} {d d' : Draft}
    (h : (runAll rule r (quiet ++ rest)).run.run d = (.ok u, d')) :
    ∃ d₁, d₁.binding = d.binding ∧
      d₁.edits.filter Edit.writesRows = d.edits.filter Edit.writesRows ∧
      (runAll rule r rest).run.run d₁ = (.ok u, d') := by
  induction quiet generalizing d with
  | nil => exact ⟨d, rfl, rfl, h⟩
  | cons e others ih =>
      obtain ⟨he, hothers⟩ := List.forall_mem_cons.1 hquiet
      obtain ⟨d₁, hstep, h⟩ := runAll_cons_eq_ok h
      obtain ⟨hbinding, hedits⟩ := he d d₁ hstep
      obtain ⟨d₂, hbinding', hedits', h⟩ := ih hothers h
      exact ⟨d₂, hbinding'.trans hbinding, hedits'.trans hedits, h⟩

theorem isQuiet_of_edits {e : Editor}
    (h : e.isSkipped rule r = false → ∀ found d d₁, (e.edits rule r).run.run d = (.ok found, d₁) →
      d₁ = d ∧ ∀ x ∈ found, x.writesRows = false) : IsQuiet rule r e := by
  rintro d d' (⟨-, rfl⟩ | ⟨hneeded, found, d₁, hfound, rfl⟩)
  · exact ⟨rfl, rfl⟩
  · obtain ⟨rfl, hnone⟩ := h hneeded found d d₁ hfound
    refine ⟨rfl, ?_⟩
    have hfilter : found.filter Edit.writesRows = [] :=
      List.filter_eq_nil_iff.2 fun x hx => by rw [hnone x hx]; exact Bool.false_ne_true
    simp only [List.filter_append, hfilter, List.append_nil]

end Editor

/-! ### Encrypted columns -/

namespace Editing

variable {rule : EncryptRule} {table : TableRef}

theorem encryptColumn?_eq_none (hrule : ∀ columns ∈ rule.columns? table.name, columns = [])
    (c : ColumnRef) : encryptColumn? rule [table] c = none := by
  have hcolumn : ∀ name, rule.column? table.name name = none := by
    intro name
    rw [EncryptRule.column?]
    cases hcolumns : rule.columns? table.name with
    | none => rfl
    | some columns => rw [hrule columns hcolumns]; rfl
  unfold encryptColumn?
  split
  · rw [Option.bind_eq_none_iff]
    intro t ht
    cases List.mem_singleton.1 (List.mem_of_find?_eq_some ht)
    exact hcolumn c.name
  · simp only [List.findSome?_cons, hcolumn, List.findSome?_nil]

/-- Without encrypted columns there is nothing to edit in the rows of an insertion. -/
theorem encryption_of_insert {i : Insert} {sql : LogicalSql} {found : List Edit} {d d₁ : Draft}
    (hrule : ∀ columns ∈ rule.columns? i.table.name, columns = [])
    (hinsert : sql.statement = .insert i) (hset : i.set = none)
    (h : (encryption rule sql).run.run d = (.ok found, d₁)) : d₁ = d ∧ found = [] := by
  have hamong : encryptedAmong rule [i.table] i.columns = [] := by
    rw [encryptedAmong, List.filterMap_eq_nil_iff]
    intro p _
    rw [encryptColumn?_eq_none hrule]
    rfl
  unfold encryption at h
  rw [hinsert] at h
  obtain ⟨predicates, d₂, hpredicates, h⟩ := Stateful.bind_eq_ok.1 h
  obtain ⟨others, d₃, hothers, h⟩ := Stateful.bind_eq_ok.1 h
  obtain ⟨rfl, rfl⟩ := Stateful.pure_eq_ok.1 h
  obtain ⟨rfl, rfl⟩ := Stateful.pure_eq_ok.1 hpredicates
  simp only [encryptedParts, hset, Statement.tables] at hothers
  obtain ⟨edits, d₄, hedits, hothers⟩ := Stateful.bind_eq_ok.1 hothers
  obtain ⟨u, d₅, hcheck, hothers⟩ := Stateful.bind_eq_ok.1 hothers
  obtain ⟨rfl, rfl⟩ := Stateful.pure_eq_ok.1 hothers
  obtain ⟨-, rfl⟩ := Stateful.liftOutcome_eq_ok.1 hcheck
  simp only [encryptedRows, hamong, List.isEmpty_nil, if_true] at hedits
  obtain ⟨rfl, rfl⟩ := Stateful.pure_eq_ok.1 hedits
  exact ⟨rfl, rfl⟩

end Editing

/-! ### Insertions -/

namespace Editor

variable {rule : Rule} {r : Routed} {i : Insert}

theorem writesRows_tables (s : Statement) :
    ∀ x ∈ Editing.tables rule s, x.writesRows = false := by
  intro x hx
  rcases List.mem_append.1 hx with hx | hx
  · obtain ⟨t, -, rfl⟩ := List.mem_map.1 hx
    rfl
  · obtain ⟨o, -, ho⟩ := List.mem_filterMap.1 hx
    unfold Editing.ownerEdit? at ho
    split at ho
    · split at ho
      · cases ho
        rfl
      · cases ho
    · cases ho

theorem writesRows_keyColumn : ∀ x ∈ Editing.keyColumn r, x.writesRows = false := by
  intro x hx
  unfold Editing.keyColumn at hx
  split at hx
  · obtain ⟨start, -, rfl⟩ := List.mem_map.1 hx
    rfl
  · cases hx

/-- **All editors of an insertion with `VALUES` but one leave its rows alone.** -/
theorem isQuiet_of_ne {e : Editor} (hinsert : r.sql.statement = .insert i) (hset : i.set = none)
    (hrule : ∀ columns ∈ rule.encrypt.columns? i.table.name, columns = [])
    (hne : e ≠ .insertRows) : IsQuiet rule r e := by
  refine isQuiet_of_edits fun hneeded found d d₁ h => ?_
  have hselect : ∀ edits : Select → Editing (List Edit),
      (onSelect edits r.sql.statement).run.run d = (.ok found, d₁) →
        d₁ = d ∧ ∀ x ∈ found, x.writesRows = false := by
    intro edits hnothing
    rw [hinsert] at hnothing
    obtain ⟨rfl, rfl⟩ := Stateful.pure_eq_ok.1 hnothing
    exact ⟨rfl, fun x hx => by cases hx⟩
  cases e with
  | tables =>
      obtain ⟨rfl, rfl⟩ := Stateful.pure_eq_ok.1 h
      exact ⟨rfl, writesRows_tables _⟩
  | projections => exact hselect _ h
  | orderBy => exact hselect _ h
  | distinctAggregations => exact hselect _ h
  | offset => exact hselect _ h
  | rowCount => exact hselect _ h
  | keyColumn =>
      obtain ⟨rfl, rfl⟩ := Stateful.pure_eq_ok.1 h
      exact ⟨rfl, writesRows_keyColumn⟩
  | keyAssignment =>
      -- the statement has no assignments that a key could be added to
      rw [isSkipped, Bool.or_eq_false_iff, Bool.not_eq_false', applies,
        Option.any_eq_true] at hneeded
      obtain ⟨-, p, hp, hsome⟩ := hneeded
      have hstatement := (Editing.of_generatedKey? hp).1
      rw [hinsert, Statement.insert.injEq] at hstatement
      rw [← hstatement, hset] at hsome
      cases hsome
  | insertRows => exact absurd rfl hne
  | encryption =>
      obtain ⟨rfl, rfl⟩ := Editing.encryption_of_insert hrule hinsert hset h
      exact ⟨rfl, fun x hx => by cases hx⟩

/-- The editor of rows writes all of them anew, and they are bound alike. -/
theorem insertRows_step {d d' : Draft} {start stop : Nat} (hinsert : r.sql.statement = .insert i)
    (hset : i.set = none) (hspan : i.valuesSpan? = some (start, stop))
    (hsharded : rule.isSharded i.table.name = true)
    (hbinding : d.binding = .grouped (GroupedBinding.ofInsert i r.sql.parameters))
    (h : Step rule r .insertRows d d') :
    d'.edits = d.edits ++ [.insertRows start stop (i.rows.zipIdx.map (Editing.draftOf r))] ∧
      d'.binding.IsOfRows r i := by
  have hvalues : Editing.valuesInsert? r = some i := by
    rw [Editing.valuesInsert?, hinsert]
    simp [hset]
  rcases h with ⟨hskipped, -⟩ | ⟨-, found, d₁, hfound, rfl⟩
  · -- the rows of a sharded table are always written anew
    have hneeded : isSkipped rule r .insertRows = false := by
      simp [isSkipped, servesMerging, applies, writesRowsAnew, hvalues, hspan, hsharded]
    rw [hneeded] at hskipped
    cases hskipped
  · obtain ⟨rfl, hedits, hrows⟩ := Editing.insertRows_spec hvalues hspan hbinding hfound
    exact ⟨by rw [hedits], hrows⟩

end Editor

/-- What all editors make of a routed statement. -/
def Routed.draft (r : Routed) (rule : Rule) : Draft :=
  ((Editor.runAll rule r Editor.all).run.run (Draft.start rule r)).2

/-- **The rows of an insertion into a sharded table are written anew once, and bound alike.** -/
theorem Routed.draft_of_insert {rule : Rule} {r : Routed} {i : Insert} {start stop : Nat}
    (hinsert : r.sql.statement = .insert i) (hset : i.set = none)
    (hspan : i.valuesSpan? = some (start, stop))
    (hsharded : rule.isSharded i.table.name = true)
    (hrule : ∀ columns ∈ rule.encrypt.columns? i.table.name, columns = []) {u : PUnit}
    (h : (Editor.runAll rule r Editor.all).run.run (Draft.start rule r) =
      (.ok u, r.draft rule)) :
    (r.draft rule).edits.filter Edit.writesRows =
        [.insertRows start stop (i.rows.zipIdx.map (Editing.draftOf r))] ∧
      (r.draft rule).binding.IsOfRows r i := by
  have hquiet : ∀ e : Editor, e ≠ .insertRows → Editor.IsQuiet rule r e := fun e he =>
    Editor.isQuiet_of_ne hinsert hset hrule he
  have hall : Editor.all = [.tables, .projections, .orderBy, .distinctAggregations, .offset,
      .rowCount, .keyColumn, .keyAssignment] ++ [.insertRows, .encryption] := rfl
  have hstart : (Draft.start rule r).binding =
      .grouped (GroupedBinding.ofInsert i r.sql.parameters) := by
    rw [Draft.start, Draft.startBinding, hinsert]
    simp [hset, hsharded]
  -- before and after the rows are written the other editors leave them alone
  rw [hall] at h
  obtain ⟨d₁, hbinding, hedits, h⟩ := Editor.runAll_append_of_isQuiet (fun e he => hquiet e (by
    rintro rfl
    simp at he)) h
  obtain ⟨d₂, hrows, h⟩ := Editor.runAll_cons_eq_ok h
  obtain ⟨hrowEdits, hbound⟩ := Editor.insertRows_step hinsert hset hspan hsharded
    (hbinding.trans hstart) hrows
  obtain ⟨d₃, hencryption, h⟩ := Editor.runAll_cons_eq_ok h
  obtain ⟨-, hdraft⟩ := Stateful.pure_eq_ok.1 h
  obtain ⟨hlast, hlastEdits⟩ := hquiet .encryption (by decide) d₂ d₃ hencryption
  rw [← hdraft, hlast, hlastEdits, hrowEdits, List.filter_append, hedits]
  exact ⟨rfl, hbound⟩

end ShardedSql
