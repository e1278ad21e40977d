/-
**One operand among those of a statement.**

Conditions and assignments are encrypted one after another, and each of them only touches the
parameters of its own markers.  So what is written and bound for an operand is the same whatever the
editors did before and whatever else the statement has.

Main definitions:

* `ShardedSql.Statement.operands` — the operands of conditions and assignments;
* `ShardedSql.Editing.Compares`, `ShardedSql.Editing.Assigns` — **what a condition compares a column
  with, and what an assignment writes**, as it is read off edits and parameters.

Main results:

* `ShardedSql.Editing.keeps_encryptedPredicate`, `ShardedSql.Editing.keeps_encryptedAssignment` — an
  operand leaves the parameters of the others alone;
* `ShardedSql.Editing.compares_of_encryption`, `ShardedSql.Editing.assigns_of_encryption` — what
  becomes of one operand among those of a statement;
* `ShardedSql.Routed.exists_encryption` — encrypted columns are edited last.
-/

import ShardedSql.Proofs.Encryption.Update
import ShardedSql.Proofs.Physical

set_option relaxedAutoImplicit false
set_option autoImplicit false

namespace ShardedSql

/-! ### Operands of a statement -/

namespace Statement

/-- The conditions without parts. -/
def leaves (s : Statement) : List Predicate := (s.condition?.map Predicate.leaves).getD []

/-- The assignments of a change, or of an insertion with `SET`. -/
def assignments : Statement → List Assignment
  | .update u => u.assignments
  | .insert i => (i.set.map (·.assignments)).getD []
  | _ => []

/-- The operands of assignments and conditions. -/
def operands (s : Statement) : List Operand :=
  s.assignments.map Assignment.operand ++ s.leaves.flatMap Predicate.columnOperands

variable {s : Statement}

theorem isWhole_of_leaf {leaf : Predicate} (h : leaf ∈ s.leaves) : s.IsWhole := by
  rintro i rfl
  cases h

theorem isWhole_of_assignment {a : Assignment} (h : a ∈ s.assignments) : s.IsWhole := by
  rintro i rfl
  rw [assignments] at h
  cases hset : i.set with
  | none =>
      rw [hset] at h
      cases h
  | some set => rfl

end Statement

/-- A condition without parts asks for the rows in which a column has the value of an
expression. -/
inductive Predicate.AsksFor (c : ColumnRef) (e : Expr) : Predicate → Prop where
  | equal : AsksFor c e (.compare c .eq e)
  | among {list : List Expr} {negated : Bool} (h : e ∈ list) : AsksFor c e (.oneOf c list negated)

theorem Operand.mem_markers_of_mem {operands : List Operand} {o : Operand} (ho : o ∈ operands)
    {index : Nat} (hindex : index ∈ o.value.marker?) : index ∈ markers operands :=
  List.mem_filterMap.2 ⟨o, ho, hindex⟩

theorem Predicate.AsksFor.mem_columnOperands {c : ColumnRef} {e : Expr} {leaf : Predicate}
    (h : leaf.AsksFor c e) : ⟨c, e, false⟩ ∈ leaf.columnOperands := by
  cases h with
  | equal => exact List.mem_singleton_self _
  | among he => exact List.mem_map_of_mem he

namespace Editing

section

variable {rule : EncryptRule} {tables : List TableRef} {parameters : List Value}
  {column : EncryptColumn}

theorem encryptedOperands_eq_collect (exprs : List Expr) :
    encryptedOperands parameters column exprs =
      collect (encryptedOperand parameters column) exprs := by
  induction exprs with
  | nil => rfl
  | cons e rest ih => rw [encryptedOperands, collect, ih]

theorem encryptedPredicates_eq_collect (leaves : List Predicate) :
    encryptedPredicates rule tables parameters leaves =
      collect (encryptedPredicate rule tables parameters) leaves := by
  induction leaves with
  | nil => rfl
  | cons p rest ih => rw [encryptedPredicates, collect, ih]

theorem assignmentEdits_eq_collect (assignments : List Assignment) :
    assignmentEdits rule tables parameters assignments =
      collect (encryptedAssignment rule tables parameters) assignments := by
  induction assignments with
  | nil => rfl
  | cons a rest ih => rw [assignmentEdits, collect, ih]

end

/-! ### Conditions -/

/-- A condition compares a column with a value, both with what they are replaced by: the column is
named so, a literal is written as that of the value, and the value is bound for a marker. -/
structure Compares (edits : List Edit) (b : Binding) (c : ColumnRef) (e : Expr)
    (p : String × Value) : Prop where
  column : renameColumn c p.1 ∈ edits
  value : e.comparing p.2 ⊆ edits
  parameter : ∀ index ∈ e.marker?, b.Binds index [p.2]

theorem Compares.mono {edits more : List Edit} {b b' : Binding} {c : ColumnRef} {e : Expr}
    {p : String × Value} (h : Compares edits b c e p) (hsub : edits ⊆ more)
    (hkeeps : ∀ index ∈ e.marker?, ∀ values, b.Binds index values → b'.Binds index values) :
    Compares more b' c e p where
  column := hsub h.column
  value := List.Subset.trans h.value hsub
  parameter index hindex := hkeeps index hindex _ (h.parameter index hindex)

section

variable {rule : EncryptRule} {tables : List TableRef} {parameters : List Value} {index : Nat}
  {column : EncryptColumn} {c : ColumnRef} {e : Expr} {leaf : Predicate} {d d' : Draft}
  {found : List Edit}

theorem keeps_encryptedOperand (h : index ∉ e.marker?.toList) (values : List Value) :
    Keeps (·.Binds index values) (encryptedOperand parameters column e) := by
  intro d found d' hrun hd
  obtain ⟨v, q, -, -, -, rfl⟩ := encryptedOperand_eq_ok hrun
  exact Binding.Binds.bindFor_of_ne hd (fun hindex => h (Option.mem_toList.2 hindex)) q []

/-- A condition leaves alone what is no parameter of its own. -/
theorem keeps_encryptedPredicate {p : Predicate} (h : index ∉ Operand.markers p.columnOperands)
    (values : List Value) :
    Keeps (·.Binds index values) (encryptedPredicate rule tables parameters p) := by
  have hmarker (c : ColumnRef) {e : Expr} (ho : ⟨c, e, false⟩ ∈ p.columnOperands) :
      index ∉ e.marker?.toList := fun he =>
    h (Operand.mem_markers_of_mem ho (Option.mem_toList.1 he))
  unfold encryptedPredicate
  split
  · rename_i c op right
    split
    · exact .pure _
    · split
      · exact (keeps_encryptedOperand (hmarker c (List.mem_singleton_self _)) values).bind
          fun operands => .pure _
      · exact .throw _
  · rename_i c list negated
    split
    · exact .pure _
    · rw [encryptedOperands_eq_collect]
      refine (keeps_collect fun e he => keeps_encryptedOperand (hmarker c ?_) values).bind
        fun operands => .pure _
      exact List.mem_map_of_mem he
  · split
    · exact .pure _
    · exact .throw _
  · exact .pure _

/-- A condition that asks for the rows with a value. -/
theorem compares_of_predicate (hasks : leaf.AsksFor c e)
    (hcolumn : encryptColumn? rule tables c = some column)
    (hnodup : (Operand.markers leaf.columnOperands).Nodup)
    (halone : ∀ index ∈ e.marker?, d.binding.IsAlone index)
    (h : (encryptedPredicate rule tables parameters leaf).run.run d = (.ok found, d')) :
    ∃ v q, e.resolve parameters = some v ∧ column.queryValue v = .ok q ∧
      Compares found d'.binding c e (column.queryColumn, q) := by
  unfold encryptedPredicate at h
  cases hasks with
  | equal =>
      simp only [hcolumn, true_or, if_true] at h
      obtain ⟨operands, d₁, hoperands, h⟩ := Stateful.bind_eq_ok.1 h
      obtain ⟨rfl, rfl⟩ := Stateful.pure_eq_ok.1 h
      obtain ⟨v, q, hv, hq, rfl, rfl⟩ := encryptedOperand_eq_ok hoperands
      exact ⟨v, q, hv, hq, List.mem_cons_self, List.subset_cons_self _ _,
        fun index hindex => (halone index hindex).bindFor_self hindex q []⟩
  | @among list negated he =>
      simp only [hcolumn, encryptedOperands_eq_collect] at h
      obtain ⟨operands, d₁, hoperands, h⟩ := Stateful.bind_eq_ok.1 h
      obtain ⟨rfl, rfl⟩ := Stateful.pure_eq_ok.1 h
      have hmarkers : Operand.markers (Predicate.oneOf c list negated).columnOperands =
          list.flatMap fun e => e.marker?.toList := by
        rw [Predicate.columnOperands, Operand.markers, List.filterMap_map,
          List.filterMap_eq_flatMap_toList]
        rfl
      rw [hmarkers] at hnodup
      obtain ⟨d₁, first, d₂, hrun, hsub, hbinds⟩ := exists_of_collect he hnodup
        (fun x index => keeps_encryptedOperand) hoperands
      obtain ⟨v, q, hv, hq, rfl, rfl⟩ := encryptedOperand_eq_ok hrun
      refine ⟨v, q, hv, hq, List.mem_cons_self, fun x hx => List.mem_cons_of_mem _ (hsub hx), ?_⟩
      intro index hindex
      obtain ⟨hbefore, hafter⟩ := hbinds index (Option.mem_toList.2 hindex)
      exact hafter [q] ((hbefore (halone index hindex)).bindFor_self hindex q [])

/-- **One condition among others.** -/
theorem compares_of_predicates {leaves : List Predicate} (hleaf : leaf ∈ leaves)
    (hasks : leaf.AsksFor c e) (hcolumn : encryptColumn? rule tables c = some column)
    (hnodup : (Operand.markers (leaves.flatMap Predicate.columnOperands)).Nodup)
    (halone : ∀ index ∈ e.marker?, d.binding.IsAlone index)
    (h : (encryptedPredicates rule tables parameters leaves).run.run d = (.ok found, d')) :
    ∃ v q, e.resolve parameters = some v ∧ column.queryValue v = .ok q ∧
      Compares found d'.binding c e (column.queryColumn, q) := by
  rw [Operand.markers, List.filterMap_flatMap] at hnodup
  rw [encryptedPredicates_eq_collect] at h
  obtain ⟨d₁, first, d₂, hrun, hsub, hbinds⟩ := exists_of_collect hleaf hnodup
    (fun p index => keeps_encryptedPredicate) h
  replace hbinds {index : Nat} (hindex : index ∈ e.marker?) :=
    hbinds index (Operand.mem_markers_of_mem hasks.mem_columnOperands hindex)
  have hleaves : (Operand.markers leaf.columnOperands).Nodup :=
    (List.nodup_flatMap.1 hnodup).1 leaf hleaf
  obtain ⟨v, q, hv, hq, hcompares⟩ := compares_of_predicate hasks hcolumn hleaves
    (fun index hindex => (hbinds hindex).1 (halone index hindex)) hrun
  exact ⟨v, q, hv, hq, hcompares.mono hsub fun index hindex => (hbinds hindex).2⟩

end

/-! ### Assignments -/

/-- An assignment writes values under some names: it assigns to all of them, and the values are
bound one after another for a marker. -/
structure Assigns (edits : List Edit) (b : Binding) (a : Assignment)
    (pairs : List (String × Value)) : Prop where
  edit : a.storing pairs ∈ edits
  parameter : ∀ index ∈ a.value.marker?, b.Binds index (pairs.map Prod.snd)

theorem Assigns.mono {edits more : List Edit} {b : Binding} {a : Assignment}
    {pairs : List (String × Value)} (h : Assigns edits b a pairs) (hsub : edits ⊆ more) :
    Assigns more b a pairs where
  edit := hsub h.edit
  parameter := h.parameter

section

variable {rule : EncryptRule} {tables : List TableRef} {parameters : List Value} {index : Nat}
  {column : EncryptColumn} {a : Assignment} {d d' : Draft} {found : List Edit}

theorem keeps_encryptedAssignment (h : index ∉ a.value.marker?.toList) (values : List Value) :
    Keeps (·.Binds index values) (encryptedAssignment rule tables parameters a) := by
  cases hcolumn : encryptColumn? rule tables a.column with
  | none =>
      rw [encryptedAssignment, hcolumn]
      exact .pure _
  | some column =>
      intro d found d' hrun hd
      obtain ⟨v, parts, cipher, more, -, -, -, -, rfl⟩ := encryptedAssignment_eq_ok hcolumn hrun
      exact Binding.Binds.bindFor_of_ne hd (fun hindex => h (Option.mem_toList.2 hindex)) cipher
        more

theorem markers_map_operand (assignments : List Assignment) :
    Operand.markers (assignments.map Assignment.operand) =
      assignments.flatMap fun a => a.value.marker?.toList := by
  rw [Operand.markers, List.filterMap_map, List.filterMap_eq_flatMap_toList]
  rfl

theorem keeps_encryptedAssignments {assignments : List Assignment}
    (h : index ∉ Operand.markers (assignments.map Assignment.operand)) (values : List Value) :
    Keeps (·.Binds index values) (encryptedAssignments rule tables parameters assignments) := by
  refine (keeps_requireWhole _).bind fun b => ?_
  rw [assignmentEdits_eq_collect]
  refine keeps_collect fun a ha => keeps_encryptedAssignment (fun hmem => h ?_) values
  rw [markers_map_operand]
  exact List.mem_flatMap.2 ⟨a, ha, hmem⟩

/-- **One assignment among others.** -/
theorem assigns_of_assignments {assignments : List Assignment} (ha : a ∈ assignments)
    (hcolumn : encryptColumn? rule tables a.column = some column)
    (hnodup : (Operand.markers (assignments.map Assignment.operand)).Nodup)
    (halone : ∀ index ∈ a.value.marker?, d.binding.IsAlone index)
    (h : (encryptedAssignments rule tables parameters assignments).run.run d = (.ok found, d')) :
    ∃ v parts, a.value.resolve parameters = some v ∧ column.stored v = .ok parts ∧
      Assigns found d'.binding a parts := by
  obtain ⟨b, d₁, hb, hedits⟩ := Stateful.bind_eq_ok.1 h
  obtain ⟨-, rfl⟩ := of_requireWhole hb
  rw [assignmentEdits_eq_collect] at hedits
  rw [markers_map_operand] at hnodup
  obtain ⟨d₁, first, d₂, hrun, hsub, hbinds⟩ := exists_of_collect ha hnodup
    (fun x index => keeps_encryptedAssignment) hedits
  obtain ⟨v, parts, cipher, more, hv, hparts, hvalues, rfl, rfl⟩ :=
    encryptedAssignment_eq_ok hcolumn hrun
  refine ⟨v, parts, hv, hparts, hsub (List.mem_singleton_self _), fun index hindex => ?_⟩
  obtain ⟨hbefore, hafter⟩ := hbinds index (Option.mem_toList.2 hindex)
  rw [hvalues]
  exact hafter _ ((hbefore (halone index hindex)).bindFor_self hindex cipher more)

end

/-! ### Statements -/

section

variable {rule : EncryptRule} {sql : LogicalSql} {column : EncryptColumn} {d d' : Draft}
  {found : List Edit}

/-- Behind the conditions only assignments touch parameters. -/
theorem keeps_encryptedParts {s : Statement} {parameters : List Value} {index : Nat}
    (hwhole : s.IsWhole) (h : index ∉ Operand.markers (s.assignments.map Assignment.operand))
    (values : List Value) : Keeps (·.Binds index values) (encryptedParts rule parameters s) := by
  cases s with
  | update u => exact keeps_encryptedAssignments h values
  | insert i =>
      obtain ⟨set, hset⟩ := Option.isSome_iff_exists.1 (hwhole i rfl)
      rw [Statement.assignments, hset] at h
      simp only [encryptedParts, hset]
      exact (keeps_encryptedAssignments h values).bind fun edits =>
        (Keeps.ofOutcome _).bind fun checked => .pure _
  | _ => exact .pure _

/-- What the assignments of a statement become. -/
theorem run_encryptedAssignments {s : Statement} {parameters : List Value} {a : Assignment}
    (ha : a ∈ s.assignments)
    (h : (encryptedParts rule parameters s).run.run d = (.ok found, d')) :
    (encryptedAssignments rule s.tables parameters s.assignments).run.run d = (.ok found, d') := by
  cases s with
  | update u => exact h
  | insert i =>
      obtain ⟨set, hset⟩ := Option.isSome_iff_exists.1
        (Statement.isWhole_of_assignment ha i rfl)
      simp only [encryptedParts, hset] at h
      obtain ⟨edits, d₁, hedits, h⟩ := Stateful.bind_eq_ok.1 h
      obtain ⟨u, d₂, hcheck, h⟩ := Stateful.bind_eq_ok.1 h
      obtain ⟨rfl, rfl⟩ := Stateful.pure_eq_ok.1 h
      obtain ⟨-, rfl⟩ := Stateful.liftOutcome_eq_ok.1 hcheck
      rw [Statement.assignments, hset]
      exact hedits
  | _ => cases ha

/-- **A condition of a statement**, whatever else is encrypted in it. -/
theorem compares_of_encryption {leaf : Predicate} {c : ColumnRef} {e : Expr}
    (hleaf : leaf ∈ sql.statement.leaves) (hasks : leaf.AsksFor c e)
    (hcolumn : encryptColumn? rule sql.statement.tables c = some column)
    (hnodup : (Operand.markers sql.statement.operands).Nodup)
    (halone : ∀ index ∈ e.marker?, d.binding.IsAlone index)
    (h : (encryption rule sql).run.run d = (.ok found, d')) :
    ∃ v q, e.resolve sql.parameters = some v ∧ column.queryValue v = .ok q ∧
      Compares found d'.binding c e (column.queryColumn, q) := by
  obtain ⟨conditions, d₁, hconditions, h⟩ := Stateful.bind_eq_ok.1 h
  obtain ⟨others, d₂, hothers, h⟩ := Stateful.bind_eq_ok.1 h
  obtain ⟨rfl, rfl⟩ := Stateful.pure_eq_ok.1 h
  rw [Statement.operands, Operand.markers, List.filterMap_append] at hnodup
  have hdisjoint := List.disjoint_of_nodup_append hnodup
  obtain ⟨v, q, hv, hq, hcompares⟩ := compares_of_predicates hleaf hasks hcolumn
    hnodup.of_append_right halone hconditions
  refine ⟨v, q, hv, hq, hcompares.mono (List.subset_append_left _ _) ?_⟩
  intro index hindex values hvalues
  have hmem := Operand.mem_markers_of_mem
    (List.mem_flatMap.2 ⟨leaf, hleaf, hasks.mem_columnOperands⟩) hindex
  exact keeps_encryptedParts (Statement.isWhole_of_leaf hleaf)
    (fun hassigned => hdisjoint hassigned hmem) values _ _ _ hothers hvalues

/-- **An assignment of a statement**, whatever else is encrypted in it. -/
theorem assigns_of_encryption {a : Assignment} (ha : a ∈ sql.statement.assignments)
    (hcolumn : encryptColumn? rule sql.statement.tables a.column = some column)
    (hnodup : (Operand.markers sql.statement.operands).Nodup)
    (halone : ∀ index ∈ a.value.marker?, d.binding.IsAlone index)
    (h : (encryption rule sql).run.run d = (.ok found, d')) :
    ∃ v parts, a.value.resolve sql.parameters = some v ∧ column.stored v = .ok parts ∧
      Assigns found d'.binding a parts := by
  obtain ⟨conditions, d₁, hconditions, h⟩ := Stateful.bind_eq_ok.1 h
  obtain ⟨others, d₂, hothers, h⟩ := Stateful.bind_eq_ok.1 h
  obtain ⟨rfl, rfl⟩ := Stateful.pure_eq_ok.1 h
  rw [Statement.operands, Operand.markers, List.filterMap_append] at hnodup
  have hdisjoint := List.disjoint_of_nodup_append hnodup
  -- the conditions come first and leave the parameter of the assignment alone
  have hbefore : ∀ index ∈ a.value.marker?, d₁.binding.IsAlone index := by
    intro index hindex
    have hmem := Operand.mem_markers_of_mem
      (List.mem_map_of_mem (f := Assignment.operand) ha) hindex
    obtain ⟨w, hw⟩ := halone index hindex
    rw [encryptedPredicates_eq_collect] at hconditions
    refine ⟨w, keeps_collect (fun p hp => keeps_encryptedPredicate (fun hmarker => ?_) [w])
      _ _ _ hconditions hw⟩
    refine hdisjoint hmem ?_
    rw [List.filterMap_flatMap]
    exact List.mem_flatMap.2 ⟨p, hp, hmarker⟩
  obtain ⟨v, parts, hv, hparts, hassigns⟩ := assigns_of_assignments ha hcolumn
    hnodup.of_append_left hbefore (run_encryptedAssignments ha hothers)
  exact ⟨v, parts, hv, hparts, hassigns.mono (List.subset_append_right _ _)⟩

/-! ### Editors -/

theorem exists_table_of_encryptColumn? {tables : List TableRef} {c : ColumnRef}
    (h : encryptColumn? rule tables c = some column) :
    ∃ t ∈ tables, (rule.columns? t.name).isSome = true := by
  have hsome {t : TableRef} (ht : rule.column? t.name c.name = some column) :
      (rule.columns? t.name).isSome = true := by
    obtain ⟨columns, hcolumns, -⟩ := Option.bind_eq_some_iff.1 ht
    rw [hcolumns]
    rfl
  unfold encryptColumn? at h
  split at h
  · obtain ⟨t, hfound, ht⟩ := Option.bind_eq_some_iff.1 h
    exact ⟨t, List.mem_of_find?_eq_some hfound, hsome ht⟩
  · obtain ⟨t, hmem, ht⟩ := List.exists_of_findSome?_eq_some h
    exact ⟨t, hmem, hsome ht⟩

end

end Editing

namespace Routed

variable {rule : Rule} {r : Routed}

/-- **Encrypted columns come last**, and up to there every parameter is bound alone. -/
theorem exists_encryption (hwhole : r.sql.statement.IsWhole)
    {c : ColumnRef} {column : EncryptColumn}
    (hcolumn : Editing.encryptColumn? rule.encrypt r.sql.statement.tables c = some column)
    {statements : List PhysicalSql} (hphysical : r.physical rule = .ok statements) :
    ∃ d found d₁, (∀ index < r.sql.parameters.length, d.binding.IsAlone index) ∧
      (Editing.encryption rule.encrypt r.sql).run.run d = (.ok found, d₁) ∧
      found ⊆ (r.draft rule).edits ∧ (r.draft rule).binding = d₁.binding := by
  obtain ⟨⟨u, hrun⟩, -⟩ := physical_eq_ok hphysical
  have hall : Editor.all = [.tables, .projections, .orderBy, .distinctAggregations, .offset,
      .rowCount, .keyColumn, .keyAssignment, .insertRows] ++ [.encryption] := rfl
  rw [hall] at hrun
  obtain ⟨d, hkept, hstep⟩ := Editor.exists_last (by decide) hwhole hrun
  rcases hstep with ⟨hskipped, -⟩ | ⟨-, found, d₁, hfound, hdraft⟩
  · -- a table of the statement has encrypted columns
    obtain ⟨t, ht, hcolumns⟩ := Editing.exists_table_of_encryptColumn? hcolumn
    have hne : rule.encrypt.isEmpty = false := by
      cases hempty : rule.encrypt.isEmpty with
      | false => rfl
      | true =>
          have hentries : rule.encrypt.tables.entries = [] := List.isEmpty_iff.1 hempty
          rw [EncryptRule.columns?, Dictionary.get?, hentries] at hcolumns
          cases hcolumns
    have hany : r.sql.statement.tables.any
        (fun t => (rule.encrypt.columns? t.name).isSome) = true :=
      List.any_eq_true.2 ⟨t, ht, hcolumns⟩
    simp [Editor.isSkipped, Editor.servesMerging, Editor.applies, Editing.hasEncryptedTable, hne,
      hany] at hskipped
  · refine ⟨d, found, d₁, fun index hindex => hkept index (isAlone_start hwhole hindex), hfound,
      ?_, by rw [hdraft]⟩
    rw [hdraft]
    exact List.subset_append_right _ _

end Routed

end ShardedSql
