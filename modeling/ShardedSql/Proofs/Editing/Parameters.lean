/-
**What is bound for a single parameter.**

Editors work one after another, and so do the steps of an editor.  A step that has markers of its
own only changes what is bound for these, and all editors but the last one bind nothing behind a
parameter of the statement.

Main definitions:

* `ShardedSql.Binding.Binds`, `ShardedSql.Binding.IsAlone` — what is bound for a parameter;
* `ShardedSql.Editing.Keeps` — a step that keeps a property of the parameters;
* `ShardedSql.Editing.collect` — one step for each of several items.

Main results:

* `ShardedSql.Editing.exists_of_collect` — **one item among others**;
* `ShardedSql.Editor.keeps_edits`, `ShardedSql.Routed.isAlone_start` — a parameter stays alone up to
  the last editor.
-/

import ShardedSql.Proofs.Editor

set_option relaxedAutoImplicit false
set_option autoImplicit false

namespace ShardedSql

/-- The statement is no insertion with `VALUES`, so its parameters are the same at each placement. -/
def Statement.IsWhole (s : Statement) : Prop := ∀ i, s = .insert i → i.set.isSome = true

theorem WholeBinding.insertAfter_nil (b : WholeBinding) (index : Nat) :
    b.insertAfter index [] = b := by
  have hid : (fun s : Slot => { s with after := s.after ++ [] }) = id := by
    funext s
    rw [List.append_nil]
    rfl
  rw [WholeBinding.insertAfter, hid, List.modify_id]

/-! ### Parameters -/

/-- The values that are bound for a parameter of the statement, its own first. -/
def Binding.Binds (b : Binding) (index : Nat) (values : List Value) : Prop :=
  ∃ w s, b = .whole w ∧ w.slots[index]? = some s ∧ values = s.value :: s.after

/-- Nothing is bound behind a parameter. -/
def Binding.IsAlone (b : Binding) (index : Nat) : Prop := ∃ v, b.Binds index [v]

/-- The draft in which values are bound for an expression, if it is a marker. -/
def Draft.bindFor (d : Draft) (e : Expr) (value : Value) (more : List Value) : Draft :=
  match e.marker?, d.binding with
  | some index, .whole b =>
      { d with binding := .whole ((b.replace index value).insertAfter index more) }
  | _, _ => d

section

variable {b : WholeBinding} {d : Draft} {e : Expr} {index : Nat} {values : List Value}

theorem Draft.bindFor_of_whole (h : d.binding = .whole b) (hindex : e.marker? = some index)
    (v : Value) (more : List Value) : d.bindFor e v more =
      { d with binding := .whole ((b.replace index v).insertAfter index more) } := by
  rw [bindFor, hindex, h]

theorem Draft.bindFor_of_none (h : e.marker? = none) (v : Value) (more : List Value) :
    d.bindFor e v more = d := by
  rw [bindFor, h]

namespace Binding

/-- Only the parameter of the marker is bound otherwise. -/
theorem Binds.bindFor_of_ne (h : d.binding.Binds index values) (hne : e.marker? ≠ some index)
    (v : Value) (more : List Value) : (d.bindFor e v more).binding.Binds index values := by
  obtain ⟨b, s, hb, hs, rfl⟩ := h
  cases hj : e.marker? with
  | none =>
      rw [Draft.bindFor_of_none hj]
      exact ⟨b, s, hb, hs, rfl⟩
  | some j =>
      have hij : j ≠ index := fun hsame => hne (hj.trans (congrArg some hsame))
      rw [Draft.bindFor_of_whole hb hj]
      refine ⟨_, s, rfl, ?_, rfl⟩
      simp only [WholeBinding.insertAfter, WholeBinding.replace, List.getElem?_modify, if_neg hij,
        id_map', hs]

/-- The parameter of the marker, behind which nothing was bound. -/
theorem IsAlone.bindFor_self (h : d.binding.IsAlone index) (hindex : e.marker? = some index)
    (v : Value) (more : List Value) : (d.bindFor e v more).binding.Binds index (v :: more) := by
  obtain ⟨w, b, s, hb, hs, hvalues⟩ := h
  obtain ⟨-, hafter⟩ := List.cons.inj hvalues
  rw [Draft.bindFor_of_whole hb hindex]
  refine ⟨_, ⟨v, s.after ++ more⟩, rfl, ?_, ?_⟩
  · rw [WholeBinding.insertAfter, WholeBinding.replace, List.getElem?_modify_eq,
      List.getElem?_modify_eq, hs]
    rfl
  · rw [← hafter, List.nil_append]

/-- Another value for a marker leaves the parameters alone. -/
theorem IsAlone.bindFor (h : d.binding.IsAlone index) (v : Value) :
    (d.bindFor e v []).binding.IsAlone index := by
  by_cases hindex : e.marker? = some index
  · exact ⟨v, h.bindFor_self hindex v []⟩
  · obtain ⟨w, hw⟩ := h
    exact ⟨w, hw.bindFor_of_ne hindex v []⟩

end Binding

end

/-! ### Steps -/

namespace Editing

/-- A step that keeps a property of the parameters. -/
def Keeps {α : Type} (P : Binding → Prop) (m : Editing α) : Prop :=
  ∀ d a d', m.run.run d = (.ok a, d') → P d.binding → P d'.binding

namespace Keeps

variable {α β : Type} {P : Binding → Prop}

theorem pure (a : α) : Keeps P (Pure.pure a) := by
  intro d b d' h hd
  obtain ⟨-, rfl⟩ := Stateful.pure_eq_ok.1 h
  exact hd

theorem ofOutcome (x : Outcome α) : Keeps P (Editing.ofOutcome x) := by
  intro d b d' h hd
  obtain ⟨-, rfl⟩ := Stateful.liftOutcome_eq_ok.1 h
  exact hd

theorem throw (f : Fault) : Keeps P (MonadExcept.throw f : Editing α) :=
  fun _ _ _ h => absurd h Stateful.throw_ne_ok

theorem bind {m : Editing α} {f : α → Editing β} (hm : Keeps P m) (hf : ∀ a, Keeps P (f a)) :
    Keeps P (m >>= f) := by
  intro d b d' h hd
  obtain ⟨a, d₁, hfirst, h⟩ := Stateful.bind_eq_ok.1 h
  exact hf a d₁ b d' h (hm d a d₁ hfirst hd)

/-- Other parameters that are found from those that are bound. -/
theorem rebind {message : String} {f : WholeBinding → WholeBinding} {a : α}
    (h : ∀ b, P (.whole b) → P (.whole (f b))) :
    Keeps P (do
      let b ← requireWhole message
      bindWhole (f b)
      Pure.pure a) := by
  intro d x d' hrun hd
  obtain ⟨b, d₁, hb, hrun⟩ := Stateful.bind_eq_ok.1 hrun
  obtain ⟨u, d₂, hbind, hrun⟩ := Stateful.bind_eq_ok.1 hrun
  obtain ⟨-, rfl⟩ := Stateful.pure_eq_ok.1 hrun
  obtain ⟨hwhole, rfl⟩ := of_requireWhole hb
  cases Stateful.modify_eq_ok.1 hbind
  rw [hwhole] at hd
  exact h b hd

end Keeps

theorem keeps_requireWhole {P : Binding → Prop} (message : String) :
    Keeps P (requireWhole message) := by
  intro d b d' h hd
  obtain ⟨-, rfl⟩ := of_requireWhole h
  exact hd

/-! ### One step for each of several items -/

/-- The edits that are found for several items, one after another. -/
def collect {α : Type} (f : α → Editing (List Edit)) : List α → Editing (List Edit)
  | [] => pure []
  | x :: rest => do
      let first ← f x
      let others ← collect f rest
      pure (first ++ others)

section

variable {α : Type} {f : α → Editing (List Edit)} {xs : List α} {P : Binding → Prop}

theorem keeps_collect (h : ∀ x ∈ xs, Keeps P (f x)) : Keeps P (collect f xs) := by
  induction xs with
  | nil => exact .pure _
  | cons x rest ih =>
      obtain ⟨hx, hrest⟩ := List.forall_mem_cons.1 h
      exact hx.bind fun first => (ih hrest).bind fun others => .pure _

/-- **One item among others.**  Where no two items have a marker in common, what is bound for the
markers of an item does not depend on the other items. -/
theorem exists_of_collect {markers : α → List Nat} {x : α} (hx : x ∈ xs)
    (hnodup : (xs.flatMap markers).Nodup)
    (hkeeps : ∀ y, ∀ index ∉ markers y, ∀ values, Keeps (·.Binds index values) (f y))
    {found : List Edit} {d d' : Draft} (h : (collect f xs).run.run d = (.ok found, d')) :
    ∃ d₁ first d₂, (f x).run.run d₁ = (.ok first, d₂) ∧ first ⊆ found ∧
      ∀ index ∈ markers x, (d.binding.IsAlone index → d₁.binding.IsAlone index) ∧
        ∀ values, d₂.binding.Binds index values → d'.binding.Binds index values := by
  induction xs generalizing d found with
  | nil => cases hx
  | cons y rest ih =>
      obtain ⟨first, d₁, hfirst, h⟩ := Stateful.bind_eq_ok.1 h
      obtain ⟨others, d₂, hothers, h⟩ := Stateful.bind_eq_ok.1 h
      obtain ⟨rfl, rfl⟩ := Stateful.pure_eq_ok.1 h
      rw [List.flatMap_cons] at hnodup
      have hdisjoint := List.disjoint_of_nodup_append hnodup
      rcases List.mem_cons.1 hx with rfl | hx
      · refine ⟨d, first, d₁, hfirst, List.subset_append_left _ _, fun index hindex => ?_⟩
        refine ⟨id, fun values => keeps_collect (fun z hz => hkeeps z index (fun hmem => ?_) values)
          _ _ _ hothers⟩
        exact hdisjoint hindex (List.mem_flatMap.2 ⟨z, hz, hmem⟩)
      · obtain ⟨e₁, found, e₂, hrun, hsub, hbinds⟩ := ih hx hnodup.of_append_right hothers
        refine ⟨e₁, found, e₂, hrun, fun z hz => List.mem_append_right _ (hsub hz), ?_⟩
        intro index hindex
        have hy : index ∉ markers y := fun hy =>
          hdisjoint hy (List.mem_flatMap.2 ⟨x, hx, hindex⟩)
        obtain ⟨hbefore, hafter⟩ := hbinds index hindex
        refine ⟨fun ⟨v, hv⟩ => hbefore ⟨v, ?_⟩, hafter⟩
        exact hkeeps y index hy [v] _ _ _ hfirst hv

end

/-! ### Editors -/

/-- A key that is assigned is bound behind all parameters. -/
theorem keeps_keyAssignment (r : Routed) (index : Nat) :
    Keeps (·.IsAlone index) (keyAssignment r) := by
  unfold keyAssignment
  split
  · exact .pure _
  · split
    · split
      · exact .pure _
      · refine .rebind fun b ⟨v, w, s, hw, hs, hvalues⟩ => ?_
        cases hw
        exact ⟨v, _, s, rfl, hs, hvalues⟩
    · exact .pure _

/-- A bound of a window is another value for its marker. -/
theorem keeps_revise (bound : PageBound) (revised : Int) (edit : Nat → Nat → Int → Edit)
    (index : Nat) : Keeps (·.IsAlone index) (revise bound revised edit) := by
  unfold revise
  split
  · exact .pure _
  · rename_i j hnumber
    refine .rebind fun b hb => ?_
    have hbound := Binding.IsAlone.bindFor (d := { binding := .whole b }) (e := .markerAt j 0) hb
      (.int (Int64.ofInt revised))
    rwa [Draft.bindFor_of_whole rfl rfl, WholeBinding.insertAfter_nil] at hbound

end Editing

namespace Editor

variable {rule : Rule} {r : Routed} {index : Nat} {d d' : Draft}

/-- **The editors before that of encrypted columns bind nothing behind a parameter.** -/
theorem keeps_edits {e : Editor} (hne : e ≠ .encryption) (hwhole : r.sql.statement.IsWhole) :
    Editing.Keeps (·.IsAlone index) (e.edits rule r) := by
  have hselect {edits : Select → Editing (List Edit)}
      (h : ∀ s, Editing.Keeps (·.IsAlone index) (edits s)) :
      Editing.Keeps (·.IsAlone index) (onSelect edits r.sql.statement) := by
    unfold onSelect
    split
    · exact h _
    · exact .pure _
  cases e with
  | tables => exact .pure _
  | projections => exact hselect fun s => .pure _
  | orderBy => exact hselect fun s => .pure _
  | distinctAggregations => exact hselect fun s => .pure _
  | offset =>
      refine hselect fun s => (Editing.Keeps.ofOutcome _).bind fun window => ?_
      split
      · exact .pure _
      · split
        · exact .pure _
        · exact Editing.keeps_revise _ _ _ index
  | rowCount =>
      refine hselect fun s => (Editing.Keeps.ofOutcome _).bind fun window => ?_
      split
      · exact .pure _
      · split
        · exact Editing.keeps_revise _ _ _ index
        · exact .pure _
  | keyColumn => exact .pure _
  | keyAssignment => exact Editing.keeps_keyAssignment r index
  | insertRows =>
      have hnone : Editing.valuesInsert? r = none := by
        unfold Editing.valuesInsert?
        split
        · rename_i i hinsert
          have hset := Option.isSome_iff_ne_none.1 (hwhole i hinsert)
          rw [if_neg fun hnone => hset (Option.isNone_iff_eq_none.1 hnone)]
        · rfl
      rw [edits, Editing.insertRows, hnone]
      exact .pure _
  | encryption => exact absurd rfl hne

theorem Step.isAlone {e : Editor} (hne : e ≠ .encryption) (hwhole : r.sql.statement.IsWhole)
    (h : e.Step rule r d d') (hd : d.binding.IsAlone index) : d'.binding.IsAlone index := by
  rcases h with ⟨-, rfl⟩ | ⟨-, found, d₁, hfound, rfl⟩
  · exact hd
  · exact keeps_edits hne hwhole d found d₁ hfound hd

theorem exists_last {es : List Editor} {e : Editor} (hes : ∀ e ∈ es, e ≠ .encryption)
    (hwhole : r.sql.statement.IsWhole) {u : PUnit}
    (h : (runAll rule r (es ++ [e])).run.run d = (.ok u, d')) :
    ∃ d₁, (∀ index, d.binding.IsAlone index → d₁.binding.IsAlone index) ∧ e.Step rule r d₁ d' := by
  induction es generalizing d with
  | nil =>
      obtain ⟨d₁, hstep, h⟩ := runAll_cons_eq_ok h
      obtain ⟨-, rfl⟩ := Stateful.pure_eq_ok.1 h
      exact ⟨d, fun _ hd => hd, hstep⟩
  | cons x rest ih =>
      obtain ⟨hx, hrest⟩ := List.forall_mem_cons.1 hes
      obtain ⟨d₁, hstep, h⟩ := runAll_cons_eq_ok h
      obtain ⟨d₂, hkept, hlast⟩ := ih hrest h
      exact ⟨d₂, fun index hd => hkept index (hstep.isAlone hx hwhole hd), hlast⟩

end Editor

/-- In the beginning every parameter is bound alone. -/
theorem Routed.isAlone_start {rule : Rule} {r : Routed} (hwhole : r.sql.statement.IsWhole)
    {index : Nat}
    (hindex : index < r.sql.parameters.length) :
    (Draft.start rule r).binding.IsAlone index := by
  have hstart : (Draft.start rule r).binding = .whole (.ofValues r.sql.parameters) := by
    change Draft.startBinding rule r = _
    unfold Draft.startBinding
    split
    · rename_i i hinsert
      have hset := hwhole i hinsert
      rw [← Option.not_isNone, Bool.not_eq_true'] at hset
      rw [hset, Bool.false_and, if_neg Bool.false_ne_true]
    · rfl
  refine ⟨r.sql.parameters[index], _, ⟨r.sql.parameters[index], []⟩, hstart, ?_, rfl⟩
  rw [WholeBinding.ofValues, List.getElem?_map, List.getElem?_eq_getElem hindex]
  rfl

end ShardedSql
