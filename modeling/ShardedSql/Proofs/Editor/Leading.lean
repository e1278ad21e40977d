/-
**What is found in an insertion before parameters are touched.**

The first editors only look at the statement.  Whatever they find is put behind the edits that are
there, and the parameters stay as they are.  In an insertion they find the name of its table, when
it is sharded, and the place of the column of a generated key.

Main definitions:

* `ShardedSql.Editor.leading` — the editors that only look at an insertion;
* `ShardedSql.Editor.leadingEdits` — **what they find**.

Main results:

* `ShardedSql.Editor.runAll_append_of_pure` — editors that only look at the statement;
* `ShardedSql.Editor.Step.eq_self` — editors that find nothing;
* `ShardedSql.Editor.runAll_insert` — **an insertion after the leading editors**.
-/

import ShardedSql.Proofs.Editor

set_option relaxedAutoImplicit false
set_option autoImplicit false

namespace ShardedSql

variable {rule : Rule} {r : Routed} {i : Insert}

namespace Editor

/-! ### Editors that only look -/

theorem runAll_cons_of_pure {e : Editor} {rest : List Editor} {found : List Edit}
    (h : e.edits rule r = pure found) (d : Draft) :
    (runAll rule r (e :: rest)).run.run d =
      (runAll rule r rest).run.run
        { d with edits := d.edits ++ if e.isSkipped rule r then [] else found } := by
  rw [runAll]
  cases hskipped : e.isSkipped rule r with
  | true =>
      simp only [Bool.not_true, Bool.false_eq_true, if_false, if_true, List.append_nil]
  | false =>
      simp only [Bool.not_false, Bool.false_eq_true, if_false, if_true, run, h]
      rfl

/-- Editors that only look at the statement put what they find behind the edits that are there. -/
theorem runAll_append_of_pure {found : Editor → List Edit} {es rest : List Editor}
    (h : ∀ e ∈ es, e.edits rule r = pure (found e)) (d : Draft) :
    (runAll rule r (es ++ rest)).run.run d =
      (runAll rule r rest).run.run
        { d with
          edits := d.edits ++ es.flatMap fun e => if e.isSkipped rule r then [] else found e } := by
  induction es generalizing d with
  | nil => rw [List.flatMap_nil, List.append_nil, List.nil_append]
  | cons e es ih =>
      obtain ⟨he, hes⟩ := List.forall_mem_cons.1 h
      rw [List.cons_append, runAll_cons_of_pure he, ih hes, List.flatMap_cons, List.append_assoc]

/-- An editor that finds nothing leaves a draft as it is. -/
theorem Step.eq_self {e : Editor} {d d' : Draft} (h : e.Step rule r d d')
    (hnothing : ∀ found d₁, (e.edits rule r).run.run d = (.ok found, d₁) →
      found = [] ∧ d₁ = d) : d' = d := by
  rcases h with ⟨-, rfl⟩ | ⟨-, found, d₁, hfound, rfl⟩
  · rfl
  · obtain ⟨rfl, rfl⟩ := hnothing found d₁ hfound
    rw [List.append_nil]

/-! ### Insertions -/

/-- The editors that only look at an insertion. -/
def leading : List Editor :=
  [.tables, .projections, .orderBy, .distinctAggregations, .offset, .rowCount, .keyColumn]

theorem all_eq_leading : all = leading ++ [.keyAssignment, .insertRows, .encryption] := rfl

/-- What the leading editors find in an insertion: its table when it is sharded, and the place of
the column of a generated key. -/
def leadingEdits (rule : Rule) (r : Routed) (i : Insert) : List Edit :=
  (if rule.isSharded i.table.name then [.table i.table.start i.table.stop i.table.name] else []) ++
    if i.set.isNone then Editing.keyColumn r else []

theorem tables_insert (i : Insert) : Editing.tables rule (.insert i) =
    if rule.isSharded i.table.name then [.table i.table.start i.table.stop i.table.name]
    else [] := by
  have howners : Editing.owners (.insert i) = [] := rfl
  rw [Editing.tables, howners, Editing.ownerEdits_nil, List.append_nil, Editing.namedTables,
    Statement.tables, List.filter_singleton]
  cases rule.isSharded i.table.name <;> rfl

/-- What an editor finds in an insertion that it only looks at. -/
def foundInInsert (rule : Rule) (r : Routed) : Editor → List Edit
  | .tables => Editing.tables rule r.sql.statement
  | .keyColumn => Editing.keyColumn r
  | _ => []

theorem edits_of_mem_leading (hinsert : r.sql.statement = .insert i) :
    ∀ e ∈ leading, e.edits rule r = pure (foundInInsert rule r e) := by
  have hselect (edits : Select → Editing (List Edit)) :
      onSelect edits r.sql.statement = pure [] := by rw [hinsert]; rfl
  intro e he
  simp only [leading, List.mem_cons, List.not_mem_nil, or_false] at he
  rcases he with rfl | rfl | rfl | rfl | rfl | rfl | rfl
  · rfl
  · exact hselect _
  · exact hselect _
  · exact hselect _
  · exact hselect _
  · exact hselect _
  · rfl

/-- The edits of the leading editors, where those that are passed over would find none. -/
theorem flatMap_leading (hinsert : r.sql.statement = .insert i) :
    (leading.flatMap fun e => if e.isSkipped rule r then [] else foundInInsert rule r e) =
      leadingEdits rule r i := by
  have htables : (if isSkipped rule r .tables then [] else foundInInsert rule r .tables) =
      if rule.isSharded i.table.name then [.table i.table.start i.table.stop i.table.name]
      else [] := by
    have hskipped : isSkipped rule r .tables = !rule.isSharded i.table.name := by
      change (false || !Editing.hasShardedTable rule r.sql.statement) = _
      rw [hinsert, Bool.false_or, Editing.hasShardedTable, Statement.tables, List.any_cons,
        List.any_nil, Bool.or_false]
    have hfound : foundInInsert rule r .tables = Editing.tables rule (.insert i) := by
      rw [← hinsert]
      rfl
    rw [hfound, tables_insert, hskipped]
    cases rule.isSharded i.table.name <;> rfl
  have hkey : (if isSkipped rule r .keyColumn then [] else foundInInsert rule r .keyColumn) =
      if i.set.isNone then Editing.keyColumn r else [] := by
    change (if (false || !(Editing.generatedKey? r).any fun p =>
      p.1.set.isNone && p.1.columnsStop.isSome) then [] else Editing.keyColumn r) = _
    cases hgenerated : Editing.generatedKey? r with
    | none => simp [Editing.keyColumn, hgenerated]
    | some p =>
        obtain ⟨hstatement, -, -⟩ := Editing.of_generatedKey? hgenerated
        cases hinsert.symm.trans hstatement
        cases hset : p.1.set <;> cases hstop : p.1.columnsStop <;>
          simp [Editing.keyColumn, hgenerated, hset, hstop]
  simp only [leading, List.flatMap_cons, List.flatMap_nil, htables, hkey, leadingEdits]
  simp only [foundInInsert, ite_self, List.nil_append, List.append_nil]

/-- **An insertion after the leading editors.** -/
theorem runAll_insert (hinsert : r.sql.statement = .insert i) (d : Draft) :
    (runAll rule r all).run.run d =
      (runAll rule r [.keyAssignment, .insertRows, .encryption]).run.run
        { d with edits := d.edits ++ leadingEdits rule r i } := by
  rw [all_eq_leading, runAll_append_of_pure (edits_of_mem_leading hinsert),
    flatMap_leading hinsert]

end Editor

end ShardedSql
