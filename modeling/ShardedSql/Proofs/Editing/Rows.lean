/-
**What becomes of the rows of an insertion.**

Rows are written anew one after another, and the key of a row is bound behind its own parameters
just when a marker is written for it.  So the rows of the edit and the rows of the binding stay
side by side.

Main definitions:

* `ShardedSql.Editing.writtenKey`, `ShardedSql.Editing.boundKey` — the key of a row as it is
  written, and what is bound for it;
* `ShardedSql.Editing.draftOf`, `ShardedSql.Editing.bindingOf` — **a row as it is written and as it
  is bound**;
* `ShardedSql.Binding.IsOfRows` — the rows of an insertion are bound each by itself.

Main results:

* `ShardedSql.Editing.rowKey_spec`, `ShardedSql.Editing.rowDrafts_spec` — one row, and all rows from
  one on;
* `ShardedSql.Editing.insertRows_spec` — **all rows are written anew and bound alike**.
-/

import ShardedSql.Editing.Rows
import ShardedSql.Proofs.Stateful

set_option relaxedAutoImplicit false
set_option autoImplicit false

namespace ShardedSql

namespace Editing

variable {r : Routed}

/-! ### Keys -/

theorem of_generatedKey? {p : Insert × GeneratedKey} (h : generatedKey? r = some p) :
    r.sql.statement = .insert p.1 ∧ r.key = some p.2 ∧ p.2.generated = true := by
  unfold generatedKey? at h
  split at h
  · rename_i i k hi hk
    split at h
    · rename_i hgenerated
      cases h
      exact ⟨hi, hk, hgenerated⟩
    · cases h
  · cases h

/-- The key that was generated for the row with a number. -/
def rowKey? (r : Routed) (row : Nat) : Option Value :=
  (generatedKey? r).bind fun p => p.2.values[row]?

/-- The key of a row as it is written: as a literal where the statement has no parameters. -/
def writtenKey (r : Routed) (row : Nat) : List RowValue :=
  (rowKey? r row).toList.map fun v => if r.sql.parameters.isEmpty then .literal v else .marker

/-- What is bound for the key of a row. -/
def boundKey (r : Routed) (row : Nat) : List Value :=
  if r.sql.parameters.isEmpty then [] else (rowKey? r row).toList

/-- A row with the key that is bound for it. -/
def withKey (r : Routed) (row : Nat) (b : RowBinding) : RowBinding :=
  { b with added := b.added ++ boundKey r row }

theorem of_requireGrouped {message : String} {d d' : Draft} {b : GroupedBinding}
    (h : (requireGrouped message).run.run d = (.ok b, d')) :
    d.binding = .grouped b ∧ d' = d := by
  obtain ⟨d₁, d₂, hget, h⟩ := Stateful.bind_eq_ok.1 h
  obtain ⟨rfl, rfl⟩ := Stateful.get_eq_ok.1 hget
  split at h
  · rename_i found hfound
    obtain ⟨rfl, rfl⟩ := Stateful.pure_eq_ok.1 h
    exact ⟨hfound, rfl⟩
  · exact absurd h Stateful.throw_ne_ok

theorem of_requireWhole {message : String} {d d' : Draft} {b : WholeBinding}
    (h : (requireWhole message).run.run d = (.ok b, d')) :
    d.binding = .whole b ∧ d' = d := by
  obtain ⟨d₁, d₂, hget, h⟩ := Stateful.bind_eq_ok.1 h
  obtain ⟨rfl, rfl⟩ := Stateful.get_eq_ok.1 hget
  split at h
  · rename_i found hfound
    obtain ⟨rfl, rfl⟩ := Stateful.pure_eq_ok.1 h
    exact ⟨hfound, rfl⟩
  · exact absurd h Stateful.throw_ne_ok

/-- Without a key nothing is bound further. -/
theorem withKey_of_nil {row : Nat} (h : boundKey r row = []) : withKey r row = id := by
  funext b
  rw [withKey, h, List.append_nil]
  rfl

/-- The key of a row is written just as it is bound. -/
theorem rowKey_spec {row : Nat} {key : List RowValue} {d d' : Draft} {b : GroupedBinding}
    (hbinding : d.binding = .grouped b) (h : (rowKey r row).run.run d = (.ok key, d')) :
    key = writtenKey r row ∧
      d' = { d with binding := .grouped { b with rows := b.rows.modify row (withKey r row) } } := by
  -- where nothing is bound the draft is left alone
  have hleft (hnil : boundKey r row = []) : d =
      { d with binding := .grouped { b with rows := b.rows.modify row (withKey r row) } } := by
    rw [withKey_of_nil hnil, List.modify_id, ← hbinding]
  unfold rowKey at h
  split at h
  · rename_i hnone
    obtain ⟨rfl, rfl⟩ := Stateful.pure_eq_ok.1 h
    have hkey : rowKey? r row = none := by rw [rowKey?, hnone]; rfl
    exact ⟨by rw [writtenKey, hkey]; rfl, hleft (by rw [boundKey, hkey]; exact ite_self _)⟩
  · rename_i i k hsome
    split at h
    · exact absurd h Stateful.throw_ne_ok
    · rename_i v hv
      have hkey : rowKey? r row = some v := by rw [rowKey?, hsome]; exact hv
      split at h
      · rename_i hempty
        obtain ⟨rfl, rfl⟩ := Stateful.pure_eq_ok.1 h
        exact ⟨by rw [writtenKey, hkey, hempty]; rfl, hleft (by rw [boundKey, if_pos hempty])⟩
      · rename_i hparameters
        obtain ⟨g, d₁, hg, h⟩ := Stateful.bind_eq_ok.1 h
        obtain ⟨u, d₂, hbind, h⟩ := Stateful.bind_eq_ok.1 h
        obtain ⟨rfl, rfl⟩ := Stateful.pure_eq_ok.1 h
        obtain ⟨hbound, rfl⟩ := of_requireGrouped hg
        cases hbinding.symm.trans hbound
        cases Stateful.modify_eq_ok.1 hbind
        have hwith : withKey r row = fun x => { x with added := x.added ++ [v] } := by
          funext x
          rw [withKey, boundKey, if_neg hparameters, hkey]
          rfl
        rw [writtenKey, hkey, hwith]
        exact ⟨by simp [hparameters], rfl⟩

/-! ### Rows -/

/-- A row with its number as it is written. -/
def draftOf (r : Routed) (x : ValueRow × Nat) : RowDraft :=
  ⟨x.1.exprs.map RowValue.expr ++ writtenKey r x.2, (r.routing.rowNodes[x.2]?).getD []⟩

/-- A row with its number as it is bound. -/
def bindingOf (r : Routed) (x : ValueRow × Nat) : RowBinding :=
  ⟨x.1.parameters r.sql.parameters, boundKey r x.2⟩

/-- The rows of a binding with keys for `count` of them from the one with a number on. -/
def WithKeys (r : Routed) (row count : Nat) (before after : List RowBinding) : Prop :=
  ∀ j, after[j]? = before[j]?.map fun x =>
    if row ≤ j ∧ j < row + count then withKey r j x else x

/-- All rows from one on are written just as they are bound. -/
theorem rowDrafts_spec {row : Nat} {rows : List ValueRow} {drafts : List RowDraft} {d d' : Draft}
    {b : GroupedBinding} (hbinding : d.binding = .grouped b)
    (h : (rowDrafts r row rows).run.run d = (.ok drafts, d')) :
    drafts = (rows.zipIdx row).map (draftOf r) ∧
      ∃ after, WithKeys r row rows.length b.rows after ∧
        d' = { d with binding := .grouped { b with rows := after } } := by
  induction rows generalizing row drafts d b with
  | nil =>
      obtain ⟨rfl, rfl⟩ := Stateful.pure_eq_ok.1 h
      refine ⟨rfl, b.rows, fun j => ?_, by rw [← hbinding]⟩
      have hnot : ¬ (row ≤ j ∧ j < row + 0) := by omega
      simp only [List.length_nil, if_neg hnot, Option.map_id']
  | cons v rest ih =>
      obtain ⟨key, d₁, hkey, h⟩ := Stateful.bind_eq_ok.1 h
      obtain ⟨others, d₂, hothers, h⟩ := Stateful.bind_eq_ok.1 h
      obtain ⟨rfl, rfl⟩ := Stateful.pure_eq_ok.1 h
      obtain ⟨rfl, rfl⟩ := rowKey_spec hbinding hkey
      obtain ⟨rfl, after, hafter, rfl⟩ := ih rfl hothers
      refine ⟨rfl, after, fun j => ?_, rfl⟩
      rw [hafter j, List.getElem?_modify, Option.map_eq_map, Option.map_map]
      -- the first row got its key now, and the later ones after it
      refine congrArg (fun f => Option.map f b.rows[j]?) (funext fun x => ?_)
      simp only [Function.comp_apply, List.length_cons]
      rcases Nat.lt_trichotomy row j with hlt | rfl | hlt
      · rw [if_neg (by omega : ¬ row = j)]
        exact if_congr (by omega) rfl rfl
      · rw [if_pos rfl, if_neg (by omega), if_pos (by omega)]
      · rw [if_neg (by omega : ¬ row = j), if_neg (by omega), if_neg (by omega)]

/-- What is noted of the key column changes no parameter. -/
theorem noteKeyColumn_spec {u : PUnit} {d d' : Draft} {b : GroupedBinding}
    (hbinding : d.binding = .grouped b) (h : (noteKeyColumn r).run.run d = (.ok u, d')) :
    ∃ column, d' = { d with binding := .grouped { b with derivedColumn := column } } := by
  obtain ⟨d₁, d₂, hget, h⟩ := Stateful.bind_eq_ok.1 h
  obtain ⟨rfl, rfl⟩ := Stateful.get_eq_ok.1 hget
  split at h
  · rename_i i k g hkey hg
    cases hbinding.symm.trans hg
    cases Stateful.modify_eq_ok.1 h
    exact ⟨some k.column, rfl⟩
  · obtain ⟨-, rfl⟩ := Stateful.pure_eq_ok.1 h
    exact ⟨b.derivedColumn, by rw [← hbinding]⟩

end Editing

/-- The rows of an insertion are bound each by itself, with the keys that were generated. -/
def Binding.IsOfRows (r : Routed) (i : Insert) (b : Binding) : Prop :=
  ∃ g, b = .grouped g ∧ g.rows = i.rows.zipIdx.map (Editing.bindingOf r) ∧
    g.trailing = r.sql.parameters.drop i.rowParameterCount

namespace Editing

variable {r : Routed} {i : Insert}

theorem rows_withKeys {after : List RowBinding}
    (h : WithKeys r 0 i.rows.length (GroupedBinding.ofInsert i r.sql.parameters).rows after) :
    after = i.rows.zipIdx.map (bindingOf r) := by
  refine List.ext_getElem? fun j => ?_
  rw [h j, GroupedBinding.ofInsert, List.getElem?_map, List.getElem?_map, List.getElem?_zipIdx,
    Option.map_map, Option.map_map]
  cases hj : i.rows[j]? with
  | none => rfl
  | some v =>
      obtain ⟨hlt, -⟩ := List.getElem?_eq_some_iff.1 hj
      simp only [Option.map_some, Function.comp_apply]
      rw [if_pos (by omega), Nat.zero_add]
      rfl

/-- **All rows are written anew and bound alike.** -/
theorem insertRows_spec {start stop : Nat} {found : List Edit} {d d' : Draft}
    (hinsert : valuesInsert? r = some i) (hspan : i.valuesSpan? = some (start, stop))
    (hbinding : d.binding = .grouped (GroupedBinding.ofInsert i r.sql.parameters))
    (h : (insertRows r).run.run d = (.ok found, d')) :
    found = [.insertRows start stop (i.rows.zipIdx.map (draftOf r))] ∧ d'.edits = d.edits ∧
      d'.binding.IsOfRows r i := by
  unfold insertRows at h
  simp only [hinsert, hspan] at h
  obtain ⟨u, d₁, hnote, h⟩ := Stateful.bind_eq_ok.1 h
  obtain ⟨drafts, d₂, hdrafts, h⟩ := Stateful.bind_eq_ok.1 h
  obtain ⟨rfl, rfl⟩ := Stateful.pure_eq_ok.1 h
  obtain ⟨column, rfl⟩ := noteKeyColumn_spec hbinding hnote
  obtain ⟨rfl, after, hafter, rfl⟩ := rowDrafts_spec rfl hdrafts
  exact ⟨rfl, rfl, _, rfl, rows_withKeys hafter, rfl⟩

end Editing

end ShardedSql
