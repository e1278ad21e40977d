/-
**Bindings: the parameters of a physical statement.**

Where every placement has the same statement its parameters are those of the logical statement,
some of them replaced, and further ones put after them.  Where the rows of an insertion go to
different placements each row keeps its own parameters, and what comes after the rows goes to every
placement.

Main definitions:

* `ShardedSql.WholeBinding` — parameters that are the same for each placement;
* `ShardedSql.GroupedBinding` — parameters row by row;
* `ShardedSql.Binding.parameters` — the parameters at a placement.

Main results:

* `ShardedSql.WholeBinding.parameters_ofValues` — **unchanged parameters are bound as given**;
* `ShardedSql.GroupedBinding.length_ofInsert` — a group of parameters for each row.
-/

import ShardedSql.Routing
import ShardedSql.Statement.Insert

set_option relaxedAutoImplicit false
set_option autoImplicit false

namespace ShardedSql

/-! ### The same parameters everywhere -/

/-- A parameter of the statement and what is bound right after it. -/
structure Slot where
  value : Value
  after : List Value := []
  deriving Repr, DecidableEq, Inhabited

/-- Parameters that are the same for each placement. -/
structure WholeBinding where
  /-- The parameters of the statement. -/
  slots : List Slot := []
  /-- What is bound behind all of them. -/
  added : List Value := []
  deriving Repr, DecidableEq, Inhabited

namespace WholeBinding

/-- The parameters of a statement, none of them changed. -/
def ofValues (values : List Value) : WholeBinding := { slots := values.map fun v => ⟨v, []⟩ }

/-- The parameters with another value at a place. -/
def replace (b : WholeBinding) (index : Nat) (v : Value) : WholeBinding :=
  { b with slots := b.slots.modify index fun s => { s with value := v } }

/-- The parameters with further values after the one at a place. -/
def insertAfter (b : WholeBinding) (index : Nat) (vs : List Value) : WholeBinding :=
  { b with slots := b.slots.modify index fun s => { s with after := s.after ++ vs } }

/-- The parameters with a further value behind all others. -/
def add (b : WholeBinding) (v : Value) : WholeBinding := { b with added := b.added ++ [v] }

/-- The values in the order in which they are bound. -/
def parameters (b : WholeBinding) : List Value :=
  b.slots.flatMap (fun s => s.value :: s.after) ++ b.added

@[simp] theorem parameters_ofValues (values : List Value) :
    (ofValues values).parameters = values := by
  simp only [parameters, ofValues, List.append_nil]
  induction values with
  | nil => rfl
  | cons v rest ih => simpa using ih

@[simp] theorem parameters_add (b : WholeBinding) (v : Value) :
    (b.add v).parameters = b.parameters ++ [v] := by
  simp [parameters, add]

end WholeBinding

/-! ### Row by row -/

/-- The parameters of a row and what is bound behind them. -/
structure RowBinding where
  own : List Value
  added : List Value := []
  deriving Repr, DecidableEq, Inhabited

/-- The values of a row in the order in which they are bound. -/
def RowBinding.parameters (r : RowBinding) : List Value := r.own ++ r.added

/-- Parameters row by row. -/
structure GroupedBinding where
  rows : List RowBinding := []
  /-- The parameters behind the rows. -/
  trailing : List Value := []
  /-- The column that keys are generated for. -/
  derivedColumn : Option String := none
  deriving Repr, DecidableEq, Inhabited

namespace GroupedBinding

/-- The parameters of an insertion, none of them changed. -/
def ofInsert (i : Insert) (parameters : List Value) : GroupedBinding :=
  { rows := i.rows.map fun r => ⟨r.parameters parameters, []⟩
    trailing := parameters.drop i.rowParameterCount }

/-- The parameters with another value at a place of a row. -/
def replace (b : GroupedBinding) (row index : Nat) (v : Value) : GroupedBinding :=
  { b with rows := b.rows.modify row fun r => { r with own := r.own.set index v } }

/-- The parameters with a further value behind the others of a row. -/
def add (b : GroupedBinding) (row : Nat) (v : Value) : GroupedBinding :=
  { b with rows := b.rows.modify row fun r => { r with added := r.added ++ [v] } }

/-- The values of a row, none if there is no such row. -/
def rowParameters (b : GroupedBinding) (row : Nat) : List Value :=
  (b.rows[row]?.map RowBinding.parameters).getD []

/-- A row goes to a placement.  A row without nodes goes to every placement. -/
def goesTo (p : Placement) : Option (List DataNode) → Bool
  | some (n :: rest) => (n :: rest).any p.covers
  | _ => true

/-- The values of the rows that go to a placement, when the first row has the nodes at the head. -/
def rowsAt (p : Placement) : List RowBinding → List (List DataNode) → List Value
  | [], _ => []
  | r :: rest, nodes =>
      (if goesTo p nodes.head? then r.parameters else []) ++ rowsAt p rest nodes.tail

/-- The values at a placement: those of its rows, then those behind the rows. -/
def parameters (b : GroupedBinding) (p : Placement) (rowNodes : List (List DataNode)) :
    List Value :=
  rowsAt p b.rows rowNodes ++ b.trailing

@[simp] theorem length_ofInsert (i : Insert) (parameters : List Value) :
    (ofInsert i parameters).rows.length = i.rowExprs.length := by
  simp [ofInsert]

end GroupedBinding

/-! ### Either -/

/-- The parameters of a physical statement. -/
inductive Binding where
  | whole (b : WholeBinding)
  | grouped (b : GroupedBinding)
  deriving Repr, DecidableEq, Inhabited

/-- The values at a placement of a routing, in the order in which they are bound. -/
def Binding.parameters (p : Placement) (r : Routing) : Binding → List Value
  | .whole b => b.parameters
  | .grouped b => b.parameters p r.rowNodes

end ShardedSql
