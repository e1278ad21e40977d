/-
**Rows with their markers filled.**

A data source reads the rows of an insertion from left to right and takes the next parameter at
each marker.  A row of which the markers are numbered in order finds there what the expressions of
the statement stand for, whatever follows: reading a row consumes its own parameters and leaves the
rest, so that rows are read one after another.

Main definitions:

* `ShardedSql.Cell` — a value of a row as a data source gets it;
* `ShardedSql.Filling` — reading with parameters that are taken from the front;
* `ShardedSql.RowValue.fill`, `ShardedSql.RowDraft.fill`, `ShardedSql.Edit.fillRows` — what is read;
* `ShardedSql.Expr.cell` — what an expression stands for;
* `ShardedSql.Insert.markers` — the numbers of the markers of an insertion in their order.

Main results:

* `ShardedSql.Filling.Consumes.mapM` — **what is read one after another consumes its parameters one
  after another**;
* `ShardedSql.RowValue.consumes_exprs` — **a row consumes its own parameters**;
* `ShardedSql.Insert.isNumbered_of_mem_rows` — where the markers of an insertion are numbered
  in order, those of each row are;
* `ShardedSql.GroupedBinding.rowsAt_eq_flatMap` — the parameters at a placement.
-/

import ShardedSql.Binding
import ShardedSql.Edit
import ShardedSql.Proofs.Lists

set_option relaxedAutoImplicit false
set_option autoImplicit false

namespace ShardedSql

/-! ### Reading rows -/

/-- A value of a row as a data source gets it: a value, or a text that it evaluates itself. -/
inductive Cell where
  | value (v : Value)
  | text (s : String)
  deriving Repr, DecidableEq, Inhabited

/-- Reading with parameters that are taken from the front. -/
abbrev Filling := StateT (List Value) Option

/-- The next parameter. -/
def Filling.next : Filling Value := fun
  | [] => none
  | v :: rest => some (v, rest)

/-- Reads a value of a row. -/
def RowValue.fill : RowValue → Filling Cell
  | .literal v => pure (.value v)
  | .marker => Cell.value <$> Filling.next
  | .expr (.literal v _ _) => pure (.value v)
  | .expr (.marker _ _ _) => Cell.value <$> Filling.next
  | .expr (.raw text _ _) => pure (.text text)

/-- Reads a row. -/
def RowDraft.fill (r : RowDraft) : Filling (List Cell) := r.values.mapM RowValue.fill

/-- Reads rows. -/
def Edit.fillRows (rows : List RowDraft) : Filling (List (List Cell)) := rows.mapM RowDraft.fill

/-! ### What is consumed -/

namespace Filling

variable {α β γ : Type}

/-- Reading takes these parameters, whatever follows them, and gives this. -/
def Consumes (m : Filling α) (own : List Value) (a : α) : Prop :=
  ∀ rest, m.run (own ++ rest) = some (a, rest)

namespace Consumes

theorem pure (a : α) : Consumes (Pure.pure a) [] a := fun _ => rfl

theorem bind {m : Filling α} {f : α → Filling β} {own more : List Value} {a : α} {b : β}
    (hm : Consumes m own a) (hf : Consumes (f a) more b) : Consumes (m >>= f) (own ++ more) b := by
  intro rest
  rw [StateT.run_bind, List.append_assoc, hm]
  exact hf rest

theorem map {m : Filling α} {own : List Value} {a : α} (f : α → β) (h : Consumes m own a) :
    Consumes (f <$> m) own (f a) := by
  intro rest
  rw [StateT.run_map, h]
  rfl

theorem next (v : Value) : Consumes Filling.next [v] v := fun _ => rfl

/-- **What is read one after another consumes its parameters one after another.** -/
theorem mapM {f : α → Filling β} {own : α → List Value} {g : α → β} {xs : List α}
    (h : ∀ x ∈ xs, Consumes (f x) (own x) (g x)) :
    Consumes (xs.mapM f) (xs.flatMap own) (xs.map g) := by
  induction xs with
  | nil => exact pure []
  | cons x xs ih =>
      obtain ⟨hx, hxs⟩ := List.forall_mem_cons.1 h
      simp only [List.mapM_cons, bind_pure_comp]
      exact hx.bind ((ih hxs).map _)

theorem append {f : α → Filling β} {xs ys : List α} {own more : List Value} {bs cs : List β}
    (hxs : Consumes (xs.mapM f) own bs) (hys : Consumes (ys.mapM f) more cs) :
    Consumes ((xs ++ ys).mapM f) (own ++ more) (bs ++ cs) := by
  simp only [List.mapM_append, bind_pure_comp]
  exact hxs.bind (hys.map _)

end Consumes

end Filling

open Filling

/-! ### Expressions -/

/-- What an expression stands for: a value, or else its text. -/
def Expr.cell (parameters : List Value) (e : Expr) : Cell :=
  match e.resolve parameters with
  | some v => .value v
  | none => .text e.render

/-- The parameter that an expression is. -/
def Expr.ownParameter (parameters : List Value) (e : Expr) : List Value :=
  (e.marker?.bind fun index => parameters[index]?).toList

theorem RowValue.consumes_expr {parameters : List Value} {e : Expr}
    (h : ∀ index ∈ e.marker?, index < parameters.length) :
    Consumes (RowValue.expr e).fill (e.ownParameter parameters) (e.cell parameters) := by
  cases e with
  | literal v start stop => exact .pure _
  | marker index start stop =>
      have hvalue := List.getElem?_eq_getElem (h index rfl)
      rw [Expr.ownParameter, Expr.marker?, Option.bind_some, Expr.cell, Expr.resolve_marker, hvalue]
      exact (Consumes.next _).map _
  | raw text start stop => exact .pure _

/-- The parameters that some expressions are stand one after another, when their markers are
numbered in order. -/
theorem Expr.flatMap_ownParameter {parameters : List Value} {exprs : List Expr} {start : Nat}
    (hmarkers : exprs.filterMap Expr.marker? = List.range' start (markerCount exprs)) :
    exprs.flatMap (Expr.ownParameter parameters) =
      (parameters.drop start).take (markerCount exprs) := by
  rw [← Lists.flatMap_getElem?, ← hmarkers]
  clear hmarkers
  induction exprs with
  | nil => rfl
  | cons e rest ih =>
      rw [List.flatMap_cons, ih, Expr.ownParameter, List.filterMap_cons]
      cases e.marker? <;> rfl

/-- **The expressions of a row consume the parameters of the row**, when its markers are numbered
in order. -/
theorem RowValue.consumes_exprs {parameters : List Value} {exprs : List Expr} {start : Nat}
    (hmarkers : exprs.filterMap Expr.marker? = List.range' start (markerCount exprs))
    (hlength : start + markerCount exprs ≤ parameters.length) :
    Consumes ((exprs.map RowValue.expr).mapM RowValue.fill)
      ((parameters.drop start).take (markerCount exprs)) (exprs.map (Expr.cell parameters)) := by
  rw [← Expr.flatMap_ownParameter hmarkers, List.mapM_map]
  refine Consumes.mapM fun e he => RowValue.consumes_expr fun index hindex => ?_
  have hmem : index ∈ exprs.filterMap Expr.marker? := List.mem_filterMap.2 ⟨e, he, hindex⟩
  rw [hmarkers, List.mem_range'_1] at hmem
  omega

/-! ### Insertions -/

/-- The numbers of the markers of an insertion in their order, those of the rows first. -/
def Insert.markers (i : Insert) : List Nat :=
  (i.rowExprs.flatten ++ i.onDuplicate.map (·.value)).filterMap Expr.marker?

/-- The markers of a row are numbered from its offset on, and there are parameters for them. -/
structure ValueRow.IsNumbered (row : ValueRow) (total : Nat) : Prop where
  markers : row.exprs.filterMap Expr.marker? = List.range' row.offset row.count
  le_total : row.offset + row.count ≤ total

theorem length_filterMap_marker? (exprs : List Expr) :
    (exprs.filterMap Expr.marker?).length = markerCount exprs :=
  List.length_filterMap_eq_countP ..

theorem Insert.isNumbered_of_mem_rowsFrom {exprs : List (List Expr)} {more : List Expr}
    {offset n : Nat}
    (h : (exprs.flatten ++ more).filterMap Expr.marker? = List.range' offset n) :
    ∀ row ∈ Insert.rowsFrom offset exprs, row.IsNumbered (offset + n) := by
  induction exprs generalizing offset n with
  | nil => exact fun row hrow => by cases hrow
  | cons e rest ih =>
      rw [List.flatten_cons, List.append_assoc, List.filterMap_append] at h
      have hle : markerCount e ≤ n := by
        have hlength := congrArg List.length h
        rw [List.length_append, length_filterMap_marker?, List.length_range'] at hlength
        omega
      -- the markers of the first row are the first ones
      rw [show n = markerCount e + (n - markerCount e) by omega, ← List.range'_append_1] at h
      obtain ⟨hfirst, hothers⟩ := List.append_inj h
        (by rw [length_filterMap_marker?, List.length_range'])
      rw [Insert.rowsFrom]
      refine List.forall_mem_cons.2 ⟨⟨hfirst, ?_⟩, fun row hrow => ?_⟩
      · exact Nat.add_le_add_left hle offset
      · have hnumbered := ih hothers row hrow
        exact ⟨hnumbered.markers, by have := hnumbered.le_total; omega⟩

/-- **Where the markers of an insertion are numbered in order, those of each row are.** -/
theorem Insert.isNumbered_of_mem_rows {i : Insert} {total : Nat}
    (h : i.markers = List.range total) : ∀ row ∈ i.rows, row.IsNumbered total := by
  intro row hrow
  rw [List.range_eq_range'] at h
  have hnumbered := Insert.isNumbered_of_mem_rowsFrom h row hrow
  rwa [Nat.zero_add] at hnumbered

/-! ### Placements -/

namespace GroupedBinding

theorem goesTo_eq (p : Placement) (nodes : Option (List DataNode)) :
    goesTo p nodes = ((nodes.getD []).isEmpty || (nodes.getD []).any p.covers) := by
  cases nodes with
  | none => rfl
  | some nodes => cases nodes <;> rfl

/-- A row that is written goes where a row with its nodes is bound. -/
theorem goesTo_nodes (p : Placement) (r : RowDraft) : r.goesTo p = goesTo p (some r.nodes) := by
  rw [goesTo_eq]
  rfl

/-- **The parameters at a placement** are those of the rows that go there, one after another. -/
theorem rowsAt_eq_flatMap {α : Type} (p : Placement) (f : α × Nat → RowBinding)
    (nodes : List (List DataNode)) (rows : List α) (start : Nat) :
    rowsAt p ((rows.zipIdx start).map f) (nodes.drop start) =
      ((rows.zipIdx start).filter fun x => goesTo p nodes[x.2]?).flatMap fun x =>
        (f x).parameters := by
  induction rows generalizing start with
  | nil => rfl
  | cons row rest ih =>
      rw [List.zipIdx_cons, List.map_cons, rowsAt, List.head?_drop, List.tail_drop, ih,
        List.filter_cons]
      split
      · rw [List.flatMap_cons]
      · rfl

end GroupedBinding

end ShardedSql
