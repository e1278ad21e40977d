/-
**Edits: places of a statement's text where a physical statement differs.**

An edit either replaces the bytes from `start` to `stop`, both included, or, when it has no `stop`,
puts its text before the byte at `start`.  What it puts there may depend on the placement.

Main definitions:

* `ShardedSql.Edit` — the ten kinds of edits;
* `ShardedSql.Edit.order` — the order in which edits are made;
* `ShardedSql.Edit.render` — the text of an edit at a placement.

Main results:

* `ShardedSql.Edit.order_eq_iff` — edits that are made together have the same start, kind and stop.
-/

import ShardedSql.Routing
import ShardedSql.Statement.Segment

set_option relaxedAutoImplicit false
set_option autoImplicit false

namespace ShardedSql

/-! ### Rows of an insertion -/

/-- A value of a row that is written anew. -/
inductive RowValue where
  /-- An expression as the statement has it. -/
  | expr (e : Expr)
  /-- A value that is written as a literal. -/
  | literal (v : Value)
  /-- A value that is bound as a parameter. -/
  | marker
  deriving Repr, DecidableEq, Inhabited

/-- The value as text of a statement. -/
def RowValue.render : RowValue → String
  | .expr e => e.render
  | .literal v => v.literal
  | .marker => "?"

/-- A row that is written anew. -/
structure RowDraft where
  values : List RowValue
  /-- The nodes of the row.  Without any it goes to every placement. -/
  nodes : List DataNode
  deriving Repr, DecidableEq, Inhabited

namespace RowDraft

/-- The row goes to a placement. -/
def goesTo (r : RowDraft) (p : Placement) : Bool := r.nodes.isEmpty || r.nodes.any p.covers

/-- The row as text of a statement. -/
def render (r : RowDraft) : String :=
  "(" ++ ", ".intercalate (r.values.map RowValue.render) ++ ")"

end RowDraft

/-! ### Edits -/

/-- A place of a statement's text, and what is put there. -/
inductive Edit where
  /-- The actual table instead of a logical one. -/
  | table (start stop : Nat) (logic : String)
  /-- Columns added to the select list. -/
  | projections (start : Nat) (items : List String)
  /-- An order taken from the groups. -/
  | orderBy (start : Nat) (text : String)
  /-- What is aggregated instead of an aggregation of distinct values. -/
  | distinctAggregation (start stop : Nat) (text : String)
  /-- The offset that shards are asked for. -/
  | offset (start stop : Nat) (revised : Int)
  /-- The number of rows that shards are asked for. -/
  | rowCount (start stop : Nat) (revised : Int)
  /-- Columns added to the column list of an insertion. -/
  | insertColumns (start : Nat) (columns : List String)
  /-- A key added to the assignments of an insertion. -/
  | keyAssignment (start : Nat) (column : String) (value : RowValue)
  /-- All rows of an insertion, of which each placement has its own. -/
  | insertRows (start stop : Nat) (rows : List RowDraft)
  /-- A column or value that is stored encrypted. -/
  | encryption (start stop : Nat) (text : String)
  deriving Repr, DecidableEq, Inhabited

namespace Edit

/-- The place of the first byte that is replaced, or before which text is put. -/
def start : Edit → Nat
  | .table start _ _ => start
  | .projections start _ => start
  | .orderBy start _ => start
  | .distinctAggregation start _ _ => start
  | .offset start _ _ => start
  | .rowCount start _ _ => start
  | .insertColumns start _ => start
  | .keyAssignment start _ _ => start
  | .insertRows start _ _ => start
  | .encryption start _ _ => start

/-- The place of the last byte that is replaced, when some are. -/
def stop? : Edit → Option Nat
  | .table _ stop _ => some stop
  | .distinctAggregation _ stop _ => some stop
  | .offset _ stop _ => some stop
  | .rowCount _ stop _ => some stop
  | .insertRows _ stop _ => some stop
  | .encryption _ stop _ => some stop
  | _ => none

/-- The edit replaces text. -/
def replaces (e : Edit) : Bool := e.stop?.isSome

/-- The kinds of edits, numbered in the order in which they are made at one place. -/
def rank : Edit → Nat
  | .table _ _ _ => 0
  | .projections _ _ => 1
  | .orderBy _ _ => 2
  | .distinctAggregation _ _ _ => 3
  | .offset _ _ _ => 4
  | .rowCount _ _ _ => 5
  | .insertColumns _ _ => 6
  | .keyAssignment _ _ _ => 7
  | .insertRows _ _ _ => 8
  | .encryption _ _ _ => 9

/-- The order of stops, of which none comes first. -/
def stopOrder : Option Nat → Option Nat → Ordering
  | none, none => .eq
  | none, some _ => .lt
  | some _, none => .gt
  | some a, some b => compare a b

/-- The order in which edits are made: by start, then by kind, then by stop. -/
def order (a b : Edit) : Ordering :=
  ((compare a.start b.start).then (compare a.rank b.rank)).then (stopOrder a.stop? b.stop?)

@[simp] theorem stopOrder_eq_iff (a b : Option Nat) : stopOrder a b = .eq ↔ a = b := by
  cases a <;> cases b <;> simp [stopOrder]

theorem order_eq_iff (a b : Edit) :
    order a b = .eq ↔ a.start = b.start ∧ a.rank = b.rank ∧ a.stop? = b.stop? := by
  simp only [order, Ordering.then_eq_eq, Nat.compare_eq_eq, stopOrder_eq_iff, and_assoc]

/-- Each item after a comma. -/
def listed (items : List String) : String := String.join (items.map fun i => ", " ++ i)

/-- The rows that go to a placement; without a placement all of them. -/
def rowsFor (placement : Option Placement) (rows : List RowDraft) : List RowDraft :=
  match placement with
  | none => rows
  | some p => rows.filter fun r => r.goesTo p

/-- The text of an edit at a placement, or in the statement without one. -/
def render (placement : Option Placement) : Edit → String
  | .table _ _ logic => (placement.bind fun p => p.actual? logic).getD logic
  | .projections _ items => listed items
  | .orderBy _ text => text
  | .distinctAggregation _ _ text => text
  | .offset _ _ revised => toString revised
  | .rowCount _ _ revised => toString revised
  | .insertColumns _ columns => listed columns
  | .keyAssignment _ column value => ", " ++ column ++ " = " ++ value.render
  | .insertRows _ _ rows => ", ".intercalate ((rowsFor placement rows).map RowDraft.render)
  | .encryption _ _ text => text

end Edit

end ShardedSql
