/-
**Parameters that are bound row by row are all bound.**

The rows of an insertion take their parameters one after another, each of them as many as it has
markers, and what they leave is bound behind them.  Where a row begins is known from the markers
before it, so it may lie behind the end of the parameters.  The rows up to any one of them have
taken just the first parameters even then, as many as there are markers in them, so that none is
taken twice or passed over, however many are given.

Main definitions:

* `ShardedSql.Insert.markersBefore` — how many markers stand in the rows before one;
* `ShardedSql.Placement.Receives` — a placement receives a row.

Main results:

* `ShardedSql.Insert.getElem?_rowsFrom` — **a row begins behind the markers before it**;
* `ShardedSql.Insert.flatMap_parameters_rowsFrom` — **rows take the parameters from the place on
  where the first of them begins**, without gaps;
* `ShardedSql.GroupedBinding.rowsAt_eq_iff` — **a placement is bound all that the rows have exactly
  when it receives each row that has any**;
* `ShardedSql.GroupedBinding.own_append_trailing_ofInsert` — no parameter is lost;
* `ShardedSql.GroupedBinding.ofInsert_spec` — all of this, for the parameters of an insertion.
-/

import ShardedSql.Proofs.Binding

set_option relaxedAutoImplicit false
set_option autoImplicit false

namespace ShardedSql

/-! ### Where rows begin -/

/-- How many markers stand in the rows before the one with a number. -/
def Insert.markersBefore (i : Insert) (row : Nat) : Nat :=
  markerCount (i.rowExprs.take row).flatten

theorem markerCount_append (exprs more : List Expr) :
    markerCount (exprs ++ more) = markerCount exprs + markerCount more :=
  List.countP_append

namespace Insert

variable {i : Insert} {row : Nat} {exprs : List Expr}

theorem markersBefore_succ (h : i.rowExprs[row]? = some exprs) :
    i.markersBefore (row + 1) = i.markersBefore row + markerCount exprs := by
  rw [markersBefore, List.take_add_one, h, Option.toList_some, List.flatten_concat,
    markerCount_append, markersBefore]

/-- A row begins behind the markers before it. -/
theorem getElem?_rowsFrom (offset : Nat) (rows : List (List Expr)) (row : Nat) :
    (rowsFrom offset rows)[row]? =
      rows[row]?.map fun exprs => ⟨exprs, offset + markerCount (rows.take row).flatten⟩ := by
  induction rows generalizing offset row with
  | nil => rfl
  | cons first rest ih =>
      cases row with
      | zero => rfl
      | succ row =>
          rw [rowsFrom, List.getElem?_cons_succ, List.getElem?_cons_succ, ih, List.take_succ_cons,
            List.flatten_cons, markerCount_append]
          simp only [Nat.add_assoc]

theorem getElem?_rows (h : i.rowExprs[row]? = some exprs) :
    i.rows[row]? = some ⟨exprs, i.markersBefore row⟩ := by
  rw [rows, getElem?_rowsFrom, h, Option.map_some, Nat.zero_add]
  rfl

/-! ### What rows take -/

/-- **Rows take the parameters from the place on where the first of them begins**, as many as they
have markers. -/
theorem flatMap_parameters_rowsFrom {α : Type} (offset : Nat) (rows : List (List Expr))
    (all : List α) :
    (rowsFrom offset rows).flatMap (·.parameters all) =
      (all.drop offset).take (markerCount rows.flatten) := by
  induction rows generalizing offset with
  | nil => rfl
  | cons first rest ih =>
      rw [rowsFrom, List.flatMap_cons, ih, List.flatten_cons, markerCount_append, List.take_add,
        List.drop_drop]
      rfl

theorem foldr_count_rowsFrom (offset : Nat) (rows : List (List Expr)) :
    (rowsFrom offset rows).foldr (fun row n => row.count + n) 0 = markerCount rows.flatten := by
  induction rows generalizing offset with
  | nil => rfl
  | cons first rest ih =>
      rw [rowsFrom, List.foldr_cons, ih, List.flatten_cons, markerCount_append, ValueRow.count]

end Insert

/-! ### What placements receive -/

/-- A placement receives the row with a number: the row has no nodes, or the placement covers one of
them. -/
def Placement.Receives (p : Placement) (rowNodes : List (List DataNode)) (row : Nat) : Prop :=
  ∀ nodes ∈ rowNodes[row]?, nodes = [] ∨ ∃ n ∈ nodes, p.covers n = true

namespace GroupedBinding

theorem goesTo_iff_receives {p : Placement} {rowNodes : List (List DataNode)} {row : Nat} :
    goesTo p rowNodes[row]? = true ↔ p.Receives rowNodes row := by
  rw [goesTo_eq, Placement.Receives]
  cases rowNodes[row]? with
  | none => simp
  | some nodes => simp

/-- **A placement is bound all that the rows have exactly when it receives each row that has any.** -/
theorem rowsAt_eq_iff {p : Placement} {rows : List RowBinding} {rowNodes : List (List DataNode)} :
    rowsAt p rows rowNodes = rows.flatMap RowBinding.parameters ↔
      ∀ row group, rows[row]? = some group → group.parameters ≠ [] → p.Receives rowNodes row := by
  have hparts : rowsAt p rows rowNodes =
      (rows.zipIdx.filter fun x => goesTo p rowNodes[x.2]?).flatMap fun x => x.1.parameters := by
    rw [← rowsAt_eq_flatMap p Prod.fst rowNodes rows 0, List.drop_zero, List.zipIdx_map_fst]
  have hall : rows.flatMap RowBinding.parameters =
      rows.zipIdx.flatMap fun x => x.1.parameters := by
    rw [← List.flatMap_map Prod.fst, List.zipIdx_map_fst]
  rw [hparts, hall, Lists.flatMap_filter_eq_iff]
  constructor
  · intro h row group hgroup hne
    exact goesTo_iff_receives.1 (h (group, row) (List.mem_zipIdx_iff_getElem?.2 hgroup) hne)
  · intro h x hx hne
    exact goesTo_iff_receives.2 (h x.2 x.1 (List.mem_zipIdx_iff_getElem?.1 hx) hne)

/-! ### The parameters of an insertion -/

section

variable (i : Insert) (parameters : List Value)

theorem getElem?_rows_ofInsert {row : Nat} {exprs : List Expr}
    (h : i.rowExprs[row]? = some exprs) :
    (ofInsert i parameters).rows[row]? =
      some ⟨(parameters.drop (i.markersBefore row)).take (markerCount exprs), []⟩ := by
  rw [ofInsert, List.getElem?_map, Insert.getElem?_rows h]
  rfl

theorem parameters_of_mem_ofInsert {group : RowBinding} (h : group ∈ (ofInsert i parameters).rows) :
    group.parameters = group.own := by
  obtain ⟨row, -, rfl⟩ := List.mem_map.1 h
  exact List.append_nil _

/-- The rows have the first parameters. -/
theorem flatMap_own_ofInsert :
    (ofInsert i parameters).rows.flatMap (·.own) =
      parameters.take (markerCount i.rowExprs.flatten) := by
  rw [ofInsert, List.flatMap_map]
  exact Insert.flatMap_parameters_rowsFrom 0 i.rowExprs parameters

/-- The other parameters are behind the rows. -/
theorem trailing_ofInsert :
    (ofInsert i parameters).trailing = parameters.drop (markerCount i.rowExprs.flatten) := by
  rw [ofInsert, Insert.rowParameterCount, Insert.rows, Insert.foldr_count_rowsFrom]

/-- **No parameter is lost.** -/
theorem own_append_trailing_ofInsert :
    (ofInsert i parameters).rows.flatMap (·.own) ++ (ofInsert i parameters).trailing =
      parameters := by
  rw [flatMap_own_ofInsert, trailing_ofInsert, List.take_append_drop]

/-- A placement is bound the parameters as they are given exactly when it receives each row that has
any of them. -/
theorem parameters_ofInsert_eq_iff (p : Placement) (r : Routing) :
    (Binding.grouped (ofInsert i parameters)).parameters p r = parameters ↔
      ∀ row group, (ofInsert i parameters).rows[row]? = some group → group.own ≠ [] →
        p.Receives r.rowNodes row := by
  have hown : (ofInsert i parameters).rows.flatMap RowBinding.parameters =
      (ofInsert i parameters).rows.flatMap (·.own) :=
    List.flatMap_congr fun group hgroup => parameters_of_mem_ofInsert i parameters hgroup
  have hall : (ofInsert i parameters).rows.flatMap RowBinding.parameters ++
      (ofInsert i parameters).trailing = parameters := by
    rw [hown, own_append_trailing_ofInsert]
  calc (Binding.grouped (ofInsert i parameters)).parameters p r = parameters
    _ ↔ rowsAt p (ofInsert i parameters).rows r.rowNodes ++ (ofInsert i parameters).trailing =
          (ofInsert i parameters).rows.flatMap RowBinding.parameters ++
            (ofInsert i parameters).trailing := by
        rw [hall]
        rfl
    _ ↔ ∀ row group, (ofInsert i parameters).rows[row]? = some group → group.parameters ≠ [] →
          p.Receives r.rowNodes row := by
        rw [List.append_cancel_right_eq, rowsAt_eq_iff]
    _ ↔ _ := by
        refine forall_congr' fun row => forall_congr' fun group => forall_congr' fun hgroup => ?_
        rw [parameters_of_mem_ofInsert i parameters (List.mem_of_getElem? hgroup)]

/-- **The parameters of an insertion that are bound row by row are all bound**, with `VALUES` or with
`SET` and however many there are.  The groups of the rows in their order and then the parameters
behind the rows are those that are given.  There is a group for each row, which has a parameter for
each marker of the row as far as the rows before leave any, so for all of them when enough are
given.  A placement is bound just the parameters that are given when it receives each row that has
any of them, and only then. -/
theorem ofInsert_spec :
    (ofInsert i parameters).rows.flatMap (·.own) ++ (ofInsert i parameters).trailing = parameters ∧
      (ofInsert i parameters).rows.length = i.rowExprs.length ∧
      (∀ row exprs, i.rowExprs[row]? = some exprs →
        ∃ own, (ofInsert i parameters).rows[row]? = some ⟨own, []⟩ ∧
          own.length = min (markerCount exprs) (parameters.length - i.markersBefore row) ∧
          (i.markersBefore (row + 1) ≤ parameters.length → own.length = markerCount exprs)) ∧
      ∀ (p : Placement) (r : Routing),
        (Binding.grouped (ofInsert i parameters)).parameters p r = parameters ↔
          ∀ row group, (ofInsert i parameters).rows[row]? = some group → group.own ≠ [] →
            p.Receives r.rowNodes row := by
  refine ⟨own_append_trailing_ofInsert i parameters, length_ofInsert i parameters,
    fun row exprs hrow => ?_, parameters_ofInsert_eq_iff i parameters⟩
  have hlength : ((parameters.drop (i.markersBefore row)).take (markerCount exprs)).length =
      min (markerCount exprs) (parameters.length - i.markersBefore row) := by
    rw [List.length_take, List.length_drop]
  refine ⟨_, getElem?_rows_ofInsert i parameters hrow, hlength, fun henough => ?_⟩
  rw [Insert.markersBefore_succ hrow] at henough
  omega

end

/-- An insertion of three rows, of which the second one has no markers. -/
def threeRows : Insert :=
  .ofValues (.ofName "t_order" 12) [.ofName "user_id" 21, .ofName "status" 30] 36
    [⟨[.markerAt 0 46, .markerAt 1 49], 45, 50⟩,
      ⟨[.literal (.int 7) 54 54, .raw "now()" 57 61], 53, 62⟩,
      ⟨[.markerAt 2 66, .markerAt 3 69], 65, 70⟩]

/-- The second row goes to another data source than the others. -/
def threeRouting : Routing where
  placements := [⟨.same "ds_0", [.same "t_order"]⟩, ⟨.same "ds_1", [.same "t_order"]⟩]
  rowNodes := [[⟨"ds_0", "t_order"⟩], [⟨"ds_1", "t_order"⟩], [⟨"ds_0", "t_order"⟩]]

/-- One parameter is missing.  The first row has all of its parameters and the third one has a
single one, and the placement of both of them is bound all three. -/
theorem ofInsert_spec_threeRows :
    threeRows.markersBefore 1 ≤ [Value.int 10, .int 11, .int 12].length ∧
      (∃ own, (ofInsert threeRows [.int 10, .int 11, .int 12]).rows[0]? = some ⟨own, []⟩ ∧
        own.length = 2) ∧
      (∃ own, (ofInsert threeRows [.int 10, .int 11, .int 12]).rows[2]? = some ⟨own, []⟩ ∧
        own.length = 1) ∧
      (Binding.grouped (ofInsert threeRows [.int 10, .int 11, .int 12])).parameters
        ⟨.same "ds_0", [.same "t_order"]⟩ threeRouting = [.int 10, .int 11, .int 12] := by
  obtain ⟨-, -, hrows, hplaced⟩ := ofInsert_spec threeRows [.int 10, .int 11, .int 12]
  have henough : threeRows.markersBefore 1 ≤ [Value.int 10, .int 11, .int 12].length := by decide
  obtain ⟨first, hfirst, -, hfull⟩ := hrows 0 _ rfl
  obtain ⟨third, hthird, hlength, -⟩ := hrows 2 _ rfl
  refine ⟨henough, ⟨first, hfirst, hfull henough⟩, ⟨third, hthird, hlength⟩,
    (hplaced _ _).2 fun row group hgroup hne => goesTo_iff_receives.1 ?_⟩
  match row with
  | 0 => decide
  | 1 =>
      cases hgroup
      exact absurd rfl hne
  | 2 => decide
  | row + 3 => cases hgroup

end GroupedBinding

end ShardedSql
