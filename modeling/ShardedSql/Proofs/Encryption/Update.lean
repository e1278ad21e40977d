/-
**The parameters of a statement that changes encrypted columns.**

A parameter that is assigned to an encrypted column is bound as its cipher, and what the other
columns behind it get is bound right behind the cipher, so that the parameters of an assignment stay
together as the markers of its text do.  A parameter that an encrypted column is compared with is
replaced in its place.  Since each parameter has a single marker, whichever marker is looked at
first leaves the places of the others alone.

Main definitions:

* `ShardedSql.Operand` — an expression with the column that it is assigned to or compared with;
* `ShardedSql.Update.bound` — **what is bound for a parameter**;
* `ShardedSql.WholeBinding.Stores` — a binding in which some operands are encrypted;
* `ShardedSql.Editing.Covers` — a step after which further operands are.

Main results:

* `ShardedSql.Editing.encryptedOperand_eq_ok`, `ShardedSql.Editing.encryptedAssignment_eq_ok` — all
  that becomes of one operand;
* `ShardedSql.WholeBinding.Stores.bindFor` — one more operand is encrypted;
* `ShardedSql.Editing.covers_predicates`, `ShardedSql.Editing.covers_assignments` — conditions and
  assignments;
* `ShardedSql.LogicalSql.changed_columns_spec` — **the markers of a change are bound each to its own
  values**.
-/

import ShardedSql.Proofs.Editing.Parameters
import ShardedSql.Proofs.Encryption.Stored

set_option relaxedAutoImplicit false
set_option autoImplicit false

namespace ShardedSql

/-! ### Operands -/

/-- A marker stands for its parameter. -/
theorem Expr.resolve_of_marker? {e : Expr} {index : Nat} (h : index ∈ e.marker?)
    (parameters : List Value) : e.resolve parameters = parameters[index]? := by
  cases e with
  | literal value start stop => cases h
  | marker number start stop =>
      cases h
      rfl
  | raw text start stop => cases h

/-- An expression with the column that it is for. -/
structure Operand where
  column : ColumnRef
  value : Expr
  /-- The column is assigned the expression; otherwise it is compared with it. -/
  isAssigned : Bool
  deriving Repr, DecidableEq

namespace Operand

/-- The numbers of the markers among some operands. -/
def markers (operands : List Operand) : List Nat := operands.filterMap fun o => o.value.marker?

/-- What is bound for an operand that is a parameter: what is stored for it where it is assigned to
an encrypted column, and what such a column is compared with. -/
def bound (rule : EncryptRule) (tables : List TableRef) (o : Operand) (v : Value) :
    Outcome (List Value) :=
  match Editing.encryptColumn? rule tables o.column with
  | none => .ok [v]
  | some column =>
      if o.isAssigned then (column.stored v).map (List.map Prod.snd)
      else (column.queryValue v).map fun q => [q]

variable {rule : EncryptRule} {tables : List TableRef} {c : ColumnRef} {column : EncryptColumn}

theorem bound_of_none {o : Operand} (h : Editing.encryptColumn? rule tables o.column = none)
    (v : Value) : o.bound rule tables v = .ok [v] := by
  rw [bound, h]

theorem bound_of_compared (h : Editing.encryptColumn? rule tables c = some column) (e : Expr)
    (v : Value) : bound rule tables ⟨c, e, false⟩ v = (column.queryValue v).map fun q => [q] := by
  rw [bound, h]
  rfl

theorem bound_of_assigned (h : Editing.encryptColumn? rule tables c = some column) (e : Expr)
    (v : Value) :
    bound rule tables ⟨c, e, true⟩ v = (column.stored v).map (List.map Prod.snd) := by
  rw [bound, h]
  rfl

end Operand

/-- The operands of a condition without parts. -/
def Predicate.columnOperands : Predicate → List Operand
  | .compare c _ right => [⟨c, right, false⟩]
  | .oneOf c list _ => list.map fun e => ⟨c, e, false⟩
  | .between c low high _ => [⟨c, low, false⟩, ⟨c, high, false⟩]
  | _ => []

/-- The operand that an assignment is. -/
def Assignment.operand (a : Assignment) : Operand := ⟨a.column, a.value, true⟩

/-- The edit of an assignment to an encrypted column: all columns behind that one are assigned, with
a marker each where the assignment has one. -/
def Assignment.storing (a : Assignment) (parts : List (String × Value)) : Edit :=
  .encryption a.start a.stop (", ".intercalate (parts.map fun p =>
    Editing.assigned p.1 (if a.value.isMarker then "?" else p.2.literal)))

theorem Assignment.storing_of_isMarker {a : Assignment} (h : a.value.isMarker = true)
    (parts : List (String × Value)) : a.storing parts = .encryption a.start a.stop
      (", ".intercalate ((parts.map Prod.fst).map fun c => Editing.assigned c "?")) := by
  rw [storing, List.map_map]
  simp only [h, if_true, Function.comp_def]

/-- The edit assigns what is stored for the value of an assignment. -/
def Assignment.IsStoredBy (rule : EncryptRule) (tables : List TableRef) (parameters : List Value)
    (parts : List (String × Value)) (a : Assignment) (e : Edit) : Prop :=
  ∃ column v, Editing.encryptColumn? rule tables a.column = some column ∧
    a.value.resolve parameters = some v ∧ column.stored v = .ok parts ∧ e = a.storing parts

/-- The edits of a value that a column is compared with. -/
def Expr.comparing (q : Value) : Expr → List Edit
  | .literal _ start stop => [.encryption start stop q.literal]
  | _ => []

namespace Update

/-- The conditions without parts. -/
def leaves (u : Update) : List Predicate := (u.condition.map Predicate.leaves).getD []

/-- The operands in their order, those of the assignments first. -/
def operands (u : Update) : List Operand :=
  u.assignments.map Assignment.operand ++ u.leaves.flatMap Predicate.columnOperands

/-- **What is bound for the parameter with a number.** -/
def bound (rule : EncryptRule) (u : Update) (index : Nat) (v : Value) : Outcome (List Value) :=
  match u.operands.find? fun o => o.value.marker? = some index with
  | none => .ok [v]
  | some o => o.bound rule u.tables v

end Update

/-! ### Bindings -/

section

variable {rule : EncryptRule} {tables : List TableRef} {parameters : List Value}
  {done operands : List Operand} {o : Operand} {b : WholeBinding}

/-- What a slot has for a parameter, where some operands are encrypted. -/
structure Slot.IsFor (rule : EncryptRule) (tables : List TableRef) (done : List Operand)
    (index : Nat) (v : Value) (s : Slot) : Prop where
  of_mem : ∀ o ∈ done, o.value.marker? = some index →
    o.bound rule tables v = .ok (s.value :: s.after)
  of_notMem : index ∉ Operand.markers done → s = ⟨v, []⟩

/-- The parameters of a statement, where some operands are encrypted. -/
structure WholeBinding.Stores (rule : EncryptRule) (tables : List TableRef)
    (parameters : List Value) (done : List Operand) (b : WholeBinding) : Prop where
  added : b.added = []
  length : b.slots.length = parameters.length
  slot : ∀ index v (s : Slot), parameters[index]? = some v → b.slots[index]? = some s →
    s.IsFor rule tables done index v

namespace WholeBinding.Stores

/-- In the beginning no operand is. -/
theorem ofValues (rule : EncryptRule) (tables : List TableRef) (parameters : List Value) :
    (WholeBinding.ofValues parameters).Stores rule tables parameters [] where
  added := rfl
  length := List.length_map _
  slot index v s hv hs := by
    rw [WholeBinding.ofValues, List.getElem?_map, hv] at hs
    cases hs
    exact ⟨fun o ho => absurd ho List.not_mem_nil, fun _ => rfl⟩

theorem notMem_of_nodup {index : Nat} (hnodup : (Operand.markers (done ++ operands)).Nodup)
    (ho : o ∈ operands) (hindex : o.value.marker? = some index) :
    index ∉ Operand.markers done := by
  rw [Operand.markers, List.filterMap_append] at hnodup
  exact fun hmem => List.disjoint_of_nodup_append hnodup hmem
    (List.mem_filterMap.2 ⟨o, ho, hindex⟩)

/-- Operands that are bound as they are change nothing. -/
theorem append (h : b.Stores rule tables parameters done)
    (hnodup : (Operand.markers (done ++ operands)).Nodup)
    (hplain : ∀ o ∈ operands, ∀ index ∈ o.value.marker?, ∀ v, o.bound rule tables v = .ok [v]) :
    b.Stores rule tables parameters (done ++ operands) where
  added := h.added
  length := h.length
  slot index v s hv hs := by
    have hslot := h.slot index v s hv hs
    refine ⟨fun o ho hindex => ?_, fun hnot => hslot.of_notMem fun hmem => hnot ?_⟩
    · rcases List.mem_append.1 ho with ho | ho
      · exact hslot.of_mem o ho hindex
      · rw [hslot.of_notMem (notMem_of_nodup hnodup ho hindex)]
        exact hplain o ho index hindex v
    · rw [Operand.markers, List.filterMap_append]
      exact List.mem_append_left _ hmem

/-- **One more parameter is encrypted**, and the values behind it are put into its own slot. -/
theorem concat {index : Nat} {v value : Value} {more : List Value}
    (h : b.Stores rule tables parameters done)
    (hnodup : (Operand.markers (done ++ [o])).Nodup) (hindex : o.value.marker? = some index)
    (hv : parameters[index]? = some v) (hbound : o.bound rule tables v = .ok (value :: more)) :
    ((b.replace index value).insertAfter index more).Stores rule tables parameters
      (done ++ [o]) where
  added := h.added
  length := by
    rw [WholeBinding.insertAfter, WholeBinding.replace, List.length_modify, List.length_modify]
    exact h.length
  slot j w s hw hs := by
    have hfresh := notMem_of_nodup hnodup (List.mem_singleton_self o) hindex
    rw [WholeBinding.insertAfter, WholeBinding.replace, List.getElem?_modify,
      List.getElem?_modify] at hs
    obtain ⟨s₀, hs₀, rfl⟩ := Option.map_eq_some_iff.1 hs
    obtain ⟨s₁, hs₁, rfl⟩ := Option.map_eq_some_iff.1 hs₀
    have hslot := h.slot j w s₁ hw hs₁
    by_cases hj : index = j
    · subst hj
      cases hv.symm.trans hw
      rw [hslot.of_notMem hfresh, if_pos rfl, if_pos rfl]
      refine ⟨fun p hp hmarker => ?_, fun hnot => absurd ?_ hnot⟩
      · rcases List.mem_append.1 hp with hp | hp
        · exact absurd (List.mem_filterMap.2 ⟨p, hp, hmarker⟩) hfresh
        · cases List.mem_singleton.1 hp
          exact hbound
      · exact List.mem_filterMap.2 ⟨o, List.mem_append_right _ (List.mem_singleton_self o), hindex⟩
    · rw [if_neg hj, if_neg hj]
      refine ⟨fun p hp hmarker => ?_, fun hnot => hslot.of_notMem fun hmem => hnot ?_⟩
      · rcases List.mem_append.1 hp with hp | hp
        · exact hslot.of_mem p hp hmarker
        · cases List.mem_singleton.1 hp
          exact absurd (Option.some.inj (hindex.symm.trans hmarker)) hj
      · rw [Operand.markers, List.filterMap_append]
        exact List.mem_append_left _ hmem

/-- **One more operand is encrypted**, whether or not it is a parameter. -/
theorem bindFor {d : Draft} {v value : Value} {more : List Value}
    (h : b.Stores rule tables parameters done) (hbinding : d.binding = .whole b)
    (hnodup : (Operand.markers (done ++ [o])).Nodup) (hv : o.value.resolve parameters = some v)
    (hbound : o.bound rule tables v = .ok (value :: more)) :
    ∃ b', d.bindFor o.value value more = { d with binding := .whole b' } ∧
      b'.Stores rule tables parameters (done ++ [o]) := by
  cases hmarker : o.value.marker? with
  | none =>
      refine ⟨b, by rw [Draft.bindFor_of_none hmarker, ← hbinding], h.append hnodup ?_⟩
      intro p hp index hindex
      cases List.mem_singleton.1 hp
      rw [hmarker] at hindex
      cases hindex
  | some index =>
      rw [Expr.resolve_of_marker? hmarker] at hv
      exact ⟨_, Draft.bindFor_of_whole hbinding hmarker _ _, h.concat hnodup hmarker hv hbound⟩

end WholeBinding.Stores

end

/-! ### Steps -/

namespace Editing

section

variable {rule : EncryptRule} {tables : List TableRef} {parameters : List Value}
  {operands more : List Operand} {α β : Type} {P : α → Prop} {Q : β → Prop}

/-- A step after which some operands are encrypted, besides those that were so before, and that only
changes the binding. -/
def Covers (rule : EncryptRule) (tables : List TableRef) (parameters : List Value)
    (operands : List Operand) (P : α → Prop) (m : Editing α) : Prop :=
  ∀ done b a d d', d.binding = .whole b → b.Stores rule tables parameters done →
    (Operand.markers (done ++ operands)).Nodup → m.run.run d = (.ok a, d') →
    P a ∧ ∃ b', d' = { d with binding := .whole b' } ∧
      b'.Stores rule tables parameters (done ++ operands)

namespace Covers

/-- Where no operand is encrypted nothing is done. -/
theorem pure {a : α}
    (hplain : ∀ o ∈ operands, ∀ index ∈ o.value.marker?, ∀ v, o.bound rule tables v = .ok [v])
    (ha : P a) : Covers rule tables parameters operands P (Pure.pure a) := by
  intro done b a' d d' hbinding hb hnodup h
  obtain ⟨rfl, rfl⟩ := Stateful.pure_eq_ok.1 h
  exact ⟨ha, b, by rw [← hbinding], hb.append hnodup hplain⟩

/-- One step after another. -/
theorem bind {m : Editing α} {f : α → Editing β} (hm : Covers rule tables parameters operands P m)
    (hf : ∀ a, P a → Covers rule tables parameters more Q (f a)) :
    Covers rule tables parameters (operands ++ more) Q (m >>= f) := by
  intro done b c d d' hbinding hb hnodup h
  obtain ⟨a, d₁, hfirst, h⟩ := Stateful.bind_eq_ok.1 h
  rw [← List.append_assoc] at hnodup ⊢
  have hnodup' := hnodup
  rw [Operand.markers, List.filterMap_append] at hnodup'
  obtain ⟨ha, b₁, rfl, hb₁⟩ := hm done b a d d₁ hbinding hb hnodup'.of_append_left hfirst
  exact hf a ha (done ++ operands) b₁ c { d with binding := .whole b₁ } d' rfl hb₁ hnodup h

end Covers

/-! ### Conditions -/

/-- An edit of a condition: it names the column to compare with, or it has the value to compare with
in the place of a literal.  Either way the markers stay. -/
inductive IsOfCondition (rule : EncryptRule) (tables : List TableRef) (operands : List Operand) :
    Edit → Prop where
  | column {c : ColumnRef} {column : EncryptColumn}
      (hcolumn : encryptColumn? rule tables c = some column) :
      IsOfCondition rule tables operands (renameColumn c column.queryColumn)
  | literal {c : ColumnRef} {column : EncryptColumn} {v q : Value} {start stop : Nat}
      (hcolumn : encryptColumn? rule tables c = some column)
      (hmem : ⟨c, .literal v start stop, false⟩ ∈ operands) (hvalue : column.queryValue v = .ok q) :
      IsOfCondition rule tables operands (.encryption start stop q.literal)

theorem IsOfCondition.mono {e : Edit} (h : IsOfCondition rule tables operands e)
    (hsub : operands ⊆ more) : IsOfCondition rule tables more e := by
  cases h with
  | column hcolumn => exact .column hcolumn
  | literal hcolumn hmem hvalue => exact .literal hcolumn (hsub hmem) hvalue

/-- All edits are of a condition with some operands. -/
def AreOfCondition (rule : EncryptRule) (tables : List TableRef) (operands : List Operand)
    (edits : List Edit) : Prop := ∀ e ∈ edits, IsOfCondition rule tables operands e

theorem AreOfCondition.append {edits others : List Edit}
    (h : AreOfCondition rule tables operands edits)
    (hmore : AreOfCondition rule tables more others) :
    AreOfCondition rule tables (operands ++ more) (edits ++ others) := by
  intro e he
  rcases List.mem_append.1 he with he | he
  · exact (h e he).mono (List.subset_append_left _ _)
  · exact (hmore e he).mono (List.subset_append_right _ _)

theorem areOfCondition_nil : AreOfCondition rule tables operands [] := fun e he => by cases he

/-- **All that becomes of a value that a column is compared with.** -/
theorem encryptedOperand_eq_ok {column : EncryptColumn} {e : Expr} {d d' : Draft}
    {found : List Edit}
    (h : (encryptedOperand parameters column e).run.run d = (.ok found, d')) :
    ∃ v q, e.resolve parameters = some v ∧ column.queryValue v = .ok q ∧
      found = e.comparing q ∧ d' = d.bindFor e q [] := by
  cases e with
  | literal v start stop =>
      obtain ⟨q, d₁, hq, h⟩ := Stateful.bind_eq_ok.1 h
      obtain ⟨rfl, rfl⟩ := Stateful.pure_eq_ok.1 h
      obtain ⟨hvalue, rfl⟩ := Stateful.liftOutcome_eq_ok.1 hq
      exact ⟨v, q, rfl, hvalue, rfl, rfl⟩
  | marker index start stop =>
      obtain ⟨v, d₁, hv, h⟩ := Stateful.bind_eq_ok.1 h
      obtain ⟨b, d₂, hb, h⟩ := Stateful.bind_eq_ok.1 h
      obtain ⟨q, d₃, hq, h⟩ := Stateful.bind_eq_ok.1 h
      obtain ⟨u, d₄, hbind, h⟩ := Stateful.bind_eq_ok.1 h
      obtain ⟨rfl, rfl⟩ := Stateful.pure_eq_ok.1 h
      obtain ⟨hparameter, rfl⟩ := Stateful.liftOutcome_eq_ok.1 hv
      obtain ⟨hbound, rfl⟩ := of_requireWhole hb
      obtain ⟨hvalue, rfl⟩ := Stateful.liftOutcome_eq_ok.1 hq
      cases Stateful.modify_eq_ok.1 hbind
      refine ⟨v, q, parameter_eq_ok.1 hparameter, hvalue, rfl, ?_⟩
      rw [Draft.bindFor_of_whole hbound rfl, WholeBinding.insertAfter_nil]
  | raw text start stop => exact absurd h Stateful.throw_ne_ok

/-- A value that an encrypted column is compared with. -/
theorem covers_operand {c : ColumnRef} {column : EncryptColumn}
    (hcolumn : encryptColumn? rule tables c = some column) (e : Expr) :
    Covers rule tables parameters [⟨c, e, false⟩] (AreOfCondition rule tables [⟨c, e, false⟩])
      (encryptedOperand parameters column e) := by
  intro done b found d d' hbinding hb hnodup h
  obtain ⟨v, q, hv, hq, rfl, rfl⟩ := encryptedOperand_eq_ok h
  have hbound : Operand.bound rule tables ⟨c, e, false⟩ v = .ok [q] := by
    rw [Operand.bound_of_compared hcolumn, hq]
    rfl
  refine ⟨?_, hb.bindFor hbinding hnodup hv hbound⟩
  cases e with
  | literal w start stop =>
      cases hv
      exact List.forall_mem_singleton.2 (.literal hcolumn (List.mem_singleton_self _) hq)
  | _ => exact areOfCondition_nil

/-- The values that an encrypted column is compared with, one after another. -/
theorem covers_operands {c : ColumnRef} {column : EncryptColumn}
    (hcolumn : encryptColumn? rule tables c = some column) (exprs : List Expr) :
    Covers rule tables parameters (exprs.map fun e => ⟨c, e, false⟩)
      (AreOfCondition rule tables (exprs.map fun e => ⟨c, e, false⟩))
      (encryptedOperands parameters column exprs) := by
  induction exprs with
  | nil => exact .pure (fun o ho => absurd ho List.not_mem_nil) areOfCondition_nil
  | cons e rest ih =>
      refine (covers_operand hcolumn e).bind fun first hfirst => ?_
      rw [← List.append_nil (rest.map _)]
      refine ih.bind fun others hothers => .pure (fun o ho => absurd ho List.not_mem_nil) ?_
      exact hfirst.append hothers

/-- The column that a condition is about is named by the one to compare with. -/
theorem covers_named {c : ColumnRef} {column : EncryptColumn}
    (hcolumn : encryptColumn? rule tables c = some column) {m : Editing (List Edit)}
    (hm : Covers rule tables parameters operands (AreOfCondition rule tables operands) m) :
    Covers rule tables parameters operands (AreOfCondition rule tables operands)
      (do
        let found ← m
        pure (renameColumn c column.queryColumn :: found)) := by
  rw [← List.append_nil operands]
  refine hm.bind fun found hfound => .pure (fun o ho => absurd ho List.not_mem_nil) ?_
  rw [List.append_nil]
  exact List.forall_mem_cons.2 ⟨.column hcolumn, hfound⟩

/-- A condition without parts. -/
theorem covers_predicate (p : Predicate) :
    Covers rule tables parameters p.columnOperands (AreOfCondition rule tables p.columnOperands)
      (encryptedPredicate rule tables parameters p) := by
  have hothers {c : ColumnRef} (hnone : encryptColumn? rule tables c = none)
      {operands : List Operand} (hoperands : ∀ o ∈ operands, o.column = c) :
      Covers rule tables parameters operands (AreOfCondition rule tables operands) (pure []) :=
    .pure (fun o ho index _ => Operand.bound_of_none (by rw [hoperands o ho, hnone]))
      areOfCondition_nil
  unfold encryptedPredicate
  split
  · rename_i c op right
    split
    · rename_i hnone
      exact hothers hnone fun o ho => by cases List.mem_singleton.1 ho; rfl
    · rename_i column hcolumn
      split
      · exact covers_named hcolumn (covers_operand hcolumn right)
      · exact fun done b a d d' _ _ _ h => absurd h Stateful.throw_ne_ok
  · rename_i c list negated
    split
    · rename_i hnone
      exact hothers hnone fun o ho => by obtain ⟨e, -, rfl⟩ := List.mem_map.1 ho; rfl
    · rename_i column hcolumn
      exact covers_named hcolumn (covers_operands hcolumn list)
  · rename_i c low high negated
    split
    · rename_i hnone
      refine hothers hnone fun o ho => ?_
      rcases List.mem_cons.1 ho with rfl | ho
      · rfl
      · cases List.mem_singleton.1 ho
        rfl
    · exact fun done b a d d' _ _ _ h => absurd h Stateful.throw_ne_ok
  · rename_i hcompare honeOf hbetween
    have hnone : p.columnOperands = [] := by
      cases p with
      | compare c op right => exact absurd rfl (hcompare c op right)
      | oneOf c list negated => exact absurd rfl (honeOf c list negated)
      | between c low high negated => exact absurd rfl (hbetween c low high negated)
      | and parts => rfl
      | or parts => rfl
      | other => rfl
    rw [hnone]
    exact .pure (fun o ho => absurd ho List.not_mem_nil) areOfCondition_nil

/-- **The conditions of a statement.** -/
theorem covers_predicates (leaves : List Predicate) :
    Covers rule tables parameters (leaves.flatMap Predicate.columnOperands)
      (AreOfCondition rule tables (leaves.flatMap Predicate.columnOperands))
      (encryptedPredicates rule tables parameters leaves) := by
  induction leaves with
  | nil => exact .pure (fun o ho => absurd ho List.not_mem_nil) areOfCondition_nil
  | cons p rest ih =>
      rw [List.flatMap_cons]
      refine (covers_predicate p).bind fun first hfirst => ?_
      rw [← List.append_nil (rest.flatMap _)]
      refine ih.bind fun others hothers => .pure (fun o ho => absurd ho List.not_mem_nil) ?_
      rw [List.append_nil]
      exact hfirst.append hothers

/-! ### Assignments -/

/-- The column of an assignment is encrypted. -/
def isEncrypted (rule : EncryptRule) (tables : List TableRef) (a : Assignment) : Bool :=
  (encryptColumn? rule tables a.column).isSome

/-- All assignments to encrypted columns are written as what is stored for their values. -/
def AreStored (rule : EncryptRule) (tables : List TableRef) (parameters : List Value)
    (assignments : List Assignment) (edits : List Edit) : Prop :=
  List.Forall₂ (fun a e => ∃ parts, a.IsStoredBy rule tables parameters parts e)
    (assignments.filter (isEncrypted rule tables)) edits

theorem areStored_singleton {a : Assignment} {column : EncryptColumn} {v : Value}
    {parts : List (String × Value)} (hcolumn : encryptColumn? rule tables a.column = some column)
    (hvalue : a.value.resolve parameters = some v) (hparts : column.stored v = .ok parts) :
    AreStored rule tables parameters [a] [a.storing parts] := by
  rw [AreStored, List.filter_singleton, isEncrypted, hcolumn]
  exact .cons ⟨parts, column, v, hcolumn, hvalue, hparts, rfl⟩ .nil

theorem AreStored.append {assignments others : List Assignment} {edits found : List Edit}
    (h : AreStored rule tables parameters assignments edits)
    (hothers : AreStored rule tables parameters others found) :
    AreStored rule tables parameters (assignments ++ others) (edits ++ found) := by
  rw [AreStored, List.filter_append]
  exact List.rel_append h hothers

/-- **All that becomes of an assignment to an encrypted column.** -/
theorem encryptedAssignment_eq_ok {column : EncryptColumn} {a : Assignment} {d d' : Draft}
    {found : List Edit} (hcolumn : encryptColumn? rule tables a.column = some column)
    (h : (encryptedAssignment rule tables parameters a).run.run d = (.ok found, d')) :
    ∃ v parts cipher more, a.value.resolve parameters = some v ∧ column.stored v = .ok parts ∧
      parts.map Prod.snd = cipher :: more ∧ found = [a.storing parts] ∧
      d' = d.bindFor a.value cipher more := by
  obtain ⟨c, e⟩ := a
  unfold encryptedAssignment at h
  rw [hcolumn] at h
  cases e with
  | literal v start stop =>
      obtain ⟨parts, d₁, hparts, h⟩ := Stateful.bind_eq_ok.1 h
      obtain ⟨texts, d₂, htexts, h⟩ := Stateful.bind_eq_ok.1 h
      obtain ⟨rfl, rfl⟩ := Stateful.pure_eq_ok.1 h
      obtain ⟨rfl, rfl⟩ := Stateful.pure_eq_ok.1 htexts
      obtain ⟨hstored, rfl⟩ := Stateful.liftOutcome_eq_ok.1 hparts
      rw [literalParts_eq_stored] at hstored
      obtain ⟨cipher, assisted, -, -, -, hvalues⟩ := EncryptColumn.exists_of_stored hstored
      exact ⟨v, parts, cipher, _, rfl, hstored, hvalues, rfl, rfl⟩
  | marker index start stop =>
      obtain ⟨v, d₁, hv, h⟩ := Stateful.bind_eq_ok.1 h
      obtain ⟨columns, d₂, hcolumns, h⟩ := Stateful.bind_eq_ok.1 h
      obtain ⟨texts, d₃, htexts, h⟩ := Stateful.bind_eq_ok.1 h
      obtain ⟨rfl, rfl⟩ := Stateful.pure_eq_ok.1 h
      obtain ⟨rfl, rfl⟩ := Stateful.pure_eq_ok.1 htexts
      obtain ⟨hparameter, rfl⟩ := Stateful.liftOutcome_eq_ok.1 hv
      obtain ⟨b, hbinding⟩ : ∃ b, d.binding = .whole b := by
        obtain ⟨b, d₂, hb, -⟩ := Stateful.bind_eq_ok.1 hcolumns
        exact ⟨b, (of_requireWhole hb).1⟩
      obtain ⟨cipher, more, hstored, rfl, rfl⟩ := markerParts_spec hbinding hcolumns
      refine ⟨v, _, cipher, more.map Prod.snd, parameter_eq_ok.1 hparameter, hstored, rfl, ?_,
        (Draft.bindFor_of_whole hbinding rfl _ _).symm⟩
      rw [Assignment.storing_of_isMarker rfl]
      rfl
  | raw text start stop =>
      obtain ⟨parts, d₁, hparts, -⟩ := Stateful.bind_eq_ok.1 h
      exact absurd hparts Stateful.throw_ne_ok

/-- An assignment. -/
theorem covers_assignment (a : Assignment) :
    Covers rule tables parameters [a.operand] (AreStored rule tables parameters [a])
      (encryptedAssignment rule tables parameters a) := by
  intro done b found d d' hbinding hb hnodup h
  cases hcolumn : encryptColumn? rule tables a.column with
  | none =>
      rw [encryptedAssignment, hcolumn] at h
      obtain ⟨rfl, rfl⟩ := Stateful.pure_eq_ok.1 h
      refine ⟨?_, b, by rw [← hbinding], hb.append hnodup fun o ho index _ => ?_⟩
      · rw [AreStored, List.filter_singleton, isEncrypted, hcolumn]
        exact .nil
      · cases List.mem_singleton.1 ho
        exact Operand.bound_of_none hcolumn
  | some column =>
      obtain ⟨v, parts, cipher, more, hv, hparts, hvalues, rfl, rfl⟩ :=
        encryptedAssignment_eq_ok hcolumn h
      have hbound : a.operand.bound rule tables v = .ok (cipher :: more) := by
        rw [Assignment.operand, Operand.bound_of_assigned hcolumn, hparts, ← hvalues]
        rfl
      exact ⟨areStored_singleton hcolumn hv hparts, hb.bindFor hbinding hnodup hv hbound⟩

/-- **The assignments of a statement.** -/
theorem covers_assignments (assignments : List Assignment) :
    Covers rule tables parameters (assignments.map Assignment.operand)
      (AreStored rule tables parameters assignments)
      (encryptedAssignments rule tables parameters assignments) := by
  have hall : Covers rule tables parameters (assignments.map Assignment.operand)
      (AreStored rule tables parameters assignments)
      (assignmentEdits rule tables parameters assignments) := by
    induction assignments with
    | nil => exact .pure (fun o ho => absurd ho List.not_mem_nil) .nil
    | cons a rest ih =>
        refine (covers_assignment a).bind fun first hfirst => ?_
        rw [← List.append_nil (rest.map _)]
        refine ih.bind fun others hothers => .pure (fun o ho => absurd ho List.not_mem_nil) ?_
        exact hfirst.append hothers
  intro done b found d d' hbinding hb hnodup h
  obtain ⟨b', d₁, hb', hedits⟩ := Stateful.bind_eq_ok.1 h
  obtain ⟨-, rfl⟩ := of_requireWhole hb'
  exact hall done b found d₁ d' hbinding hb hnodup hedits

end

end Editing

/-! ### Statements -/

section

variable {rule : EncryptRule} {sql : LogicalSql} {u : Update} {b : WholeBinding}

/-- A binding in which all operands of a change are encrypted has the values of each parameter one
after another. -/
theorem Update.exists_chunks {parameters : List Value} {operands : List Operand}
    (hb : b.Stores rule u.tables parameters operands) (hperm : operands.Perm u.operands) :
    ∃ chunks, b.parameters = chunks.flatten ∧
      parameters.zipIdx.mapM (fun x => u.bound rule x.2 x.1) = .ok chunks ∧
      ∀ o ∈ u.operands, ∀ index ∈ o.value.marker?, ∀ v, parameters[index]? = some v →
        (o.bound rule u.tables v).toOption = chunks[index]? := by
  refine ⟨b.slots.map fun s => s.value :: s.after, ?_, Outcome.mapM_eq_ok.2 ?_, ?_⟩
  · rw [WholeBinding.parameters, hb.added, List.append_nil, List.flatMap_def]
  · have hlength : parameters.zipIdx.length = b.slots.length := by
      rw [List.length_zipIdx, hb.length]
    refine List.forall₂_map_right_iff.2 (List.forall₂_iff_get.2 ⟨hlength, fun j hj hj' => ?_⟩)
    rw [List.length_zipIdx] at hj
    simp only [List.get_eq_getElem, List.getElem_zipIdx, Nat.zero_add]
    have hslot := hb.slot j _ _ (List.getElem?_eq_getElem hj) (List.getElem?_eq_getElem hj')
    rw [Update.bound]
    cases hfound : u.operands.find? fun o => o.value.marker? = some j with
    | none =>
        have hnot : j ∉ Operand.markers operands := fun hmem => by
          obtain ⟨o, ho, hindex⟩ := List.mem_filterMap.1 hmem
          exact List.find?_eq_none.1 hfound o (hperm.mem_iff.1 ho) (decide_eq_true hindex)
        rw [hslot.of_notMem hnot]
    | some o =>
        refine hslot.of_mem o (hperm.mem_iff.2 (List.mem_of_find?_eq_some hfound)) ?_
        simpa using List.find?_some hfound
  · intro o ho index hindex v hv
    obtain ⟨hlt, -⟩ := List.getElem?_eq_some_iff.1 hv
    rw [← hb.length] at hlt
    have hs := List.getElem?_eq_getElem hlt
    rw [(hb.slot index v _ hv hs).of_mem o (hperm.mem_iff.2 ho) hindex, List.getElem?_map, hs]
    rfl

/-- The parts of a change, of which the conditions are looked at first. -/
theorem Editing.covers_encryption (hupdate : sql.statement = .update u) :
    Covers rule u.tables sql.parameters
      (u.leaves.flatMap Predicate.columnOperands ++ u.assignments.map Assignment.operand)
      (fun found => ∃ conditions assignments, found = conditions ++ assignments ∧
        AreOfCondition rule u.tables (u.leaves.flatMap Predicate.columnOperands) conditions ∧
        AreStored rule u.tables sql.parameters u.assignments assignments)
      (encryption rule sql) := by
  unfold encryption
  rw [hupdate]
  refine (covers_predicates u.leaves).bind fun conditions hconditions => ?_
  rw [← List.append_nil (u.assignments.map _)]
  refine (covers_assignments u.assignments).bind fun assignments hassignments => ?_
  exact .pure (fun o ho => absurd ho List.not_mem_nil)
    ⟨conditions, assignments, rfl, hconditions, hassignments⟩

/-- **The markers of a change are bound each to its own values.**  Whatever the order in which
columns are looked at, the parameters are bound in the order of their markers: what is stored for a
parameter that an encrypted column is assigned, what such a column is compared with, and any other
parameter as it is.  In the text an assignment of a parameter has a marker for each of the values
that are bound for it, and what is edited in conditions leaves their markers. -/
theorem LogicalSql.changed_columns_spec (hupdate : sql.statement = .update u)
    (hmarkers : (Operand.markers u.operands).Nodup) {found : List Edit} {d d' : Draft}
    (hbinding : d.binding = .whole (.ofValues sql.parameters))
    (h : (Editing.encryption rule sql).run.run d = (.ok found, d')) :
    ∃ b chunks conditions assignments,
      d' = { d with binding := .whole b } ∧ found = conditions ++ assignments ∧
      b.parameters = chunks.flatten ∧
      sql.parameters.zipIdx.mapM (fun x => u.bound rule x.2 x.1) = .ok chunks ∧
      Editing.AreOfCondition rule u.tables u.operands conditions ∧
      List.Forall₂ (fun a e => ∃ parts, a.IsStoredBy rule u.tables sql.parameters parts e ∧
          ∀ index ∈ a.value.marker?, chunks[index]? = some (parts.map Prod.snd))
        (u.assignments.filter (Editing.isEncrypted rule u.tables)) assignments := by
  have hperm : (u.leaves.flatMap Predicate.columnOperands ++
      u.assignments.map Assignment.operand).Perm u.operands := List.perm_append_comm
  have hnumbers := hperm.filterMap fun o => o.value.marker?
  obtain ⟨⟨conditions, assignments, hfound, hconditions, hassignments⟩, b, hd, hb⟩ :=
    Editing.covers_encryption hupdate [] _ found d d' hbinding
      (.ofValues rule u.tables sql.parameters) (hnumbers.nodup_iff.2 hmarkers) h
  obtain ⟨chunks, hflatten, hchunks, hbound⟩ := Update.exists_chunks hb hperm
  refine ⟨b, chunks, conditions, assignments, hd, hfound, hflatten, hchunks,
    fun e he => (hconditions e he).mono (List.subset_append_right _ _), ?_⟩
  have hmem := (List.forall₂_and_left _ _).2 ⟨fun a ha => ha, hassignments⟩
  refine hmem.imp fun a e ⟨ha, parts, hstored⟩ => ⟨parts, hstored, fun index hindex => ?_⟩
  obtain ⟨column, v, hcolumn, hvalue, hparts, -⟩ := hstored
  have ho : a.operand ∈ u.operands :=
    List.mem_append_left _ (List.mem_map_of_mem (List.mem_filter.1 ha).1)
  rw [Expr.resolve_of_marker? hindex] at hvalue
  rw [← hbound a.operand ho index hindex v hvalue, Assignment.operand,
    Operand.bound_of_assigned hcolumn, hparts]
  rfl

end

/-! ### A telephone number and its digests -/

/-- A change of the name and the telephone number of users with some other number. -/
def phoneChange : Update where
  tables := [.ofName "t_user" 7]
  assignments := [⟨.ofName "phone" 18, .markerAt 0 26⟩, ⟨.ofName "name" 29, .markerAt 1 36⟩]
  condition := some (.and [.compare (.ofName "phone" 44) .eq (.markerAt 2 52),
    .compare (.ofName "age" 58) .gt (.markerAt 3 64)])

/-- The change with its parameters. -/
def phoneSql : LogicalSql where
  text := "UPDATE t_user SET phone = ?, name = ? WHERE phone = ? AND age > ?"
  statement := .update phoneChange
  parameters := [.text "123", .text "bob", .text "456", .int 20]

/-- What is bound for each of the four parameters. -/
def phoneChunks : List (List Value) :=
  [[.text "202cb962ac59075b964b07152d234b70", .text "202cb962ac59075b964b07152d234b70",
    .text "123"], [.text "bob"], [.text "250cf8b51c773f3f8dc8b4be867a9a02"], [.int 20]]

/-- The change before and after its columns are looked at. -/
def phoneDraft (slots : List Slot) : Draft := ⟨[], .whole ⟨slots, []⟩⟩

namespace LogicalSql

/-- A telephone number is bound three times, and the digest of the other one once. -/
theorem changed_columns_spec_phone :
    Operand.markers phoneChange.operands = [0, 1, 2, 3] ∧
      ∃ slots,
        (Editing.encryption phoneRule phoneSql).run.run
            (phoneDraft (phoneSql.parameters.map fun v => ⟨v, []⟩)) =
          (.ok [.encryption 44 48 "phone_digest",
            .encryption 18 26 "phone_cipher = ?, phone_digest = ?, phone_plain = ?"],
            phoneDraft slots) ∧
        (⟨slots, []⟩ : WholeBinding).parameters = phoneChunks.flatten := by
  have hrun : (Editing.encryption phoneRule phoneSql).run.run
      (phoneDraft (phoneSql.parameters.map fun v => ⟨v, []⟩)) =
        (.ok [.encryption 44 48 "phone_digest",
          .encryption 18 26 "phone_cipher = ?, phone_digest = ?, phone_plain = ?"],
          phoneDraft [⟨.text "202cb962ac59075b964b07152d234b70",
            [.text "202cb962ac59075b964b07152d234b70", .text "123"]⟩, ⟨.text "bob", []⟩,
            ⟨.text "250cf8b51c773f3f8dc8b4be867a9a02", []⟩, ⟨.int 20, []⟩]) := by
    refine Prod.ext ?_ (by decide +kernel)
    change (_ : Outcome (List Edit)) = _
    decide +kernel
  have hbound : phoneSql.parameters.zipIdx.mapM
      (fun x => phoneChange.bound phoneRule x.2 x.1) = .ok phoneChunks := by decide +kernel
  obtain ⟨b, chunks, -, -, hd, -, hflatten, hchunks, -⟩ :=
    changed_columns_spec rfl (by decide) rfl hrun
  cases hd
  cases hbound.symm.trans hchunks
  exact ⟨rfl, _, hrun, hflatten⟩

end LogicalSql

end ShardedSql
