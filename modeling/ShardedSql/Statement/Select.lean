/-
**Statements that select rows.**

The rows of several shards can only be merged when every shard returns what merging looks at, so
columns are added to the select list: the count and the sum behind an average, and the columns that
rows are ordered or grouped by when they are not selected.

Main definitions:

* `ShardedSql.Projection`, `ShardedSql.OrderItem`, `ShardedSql.Pagination` — the clauses;
* `ShardedSql.Select` — the statement;
* `ShardedSql.Select.derived` — the columns that are added;
* `ShardedSql.Select.aggregations` — what merging has to aggregate;
* `ShardedSql.Select.labels` — the labels of the columns that a shard returns;
* `ShardedSql.Window` — the pagination with its parameters filled in.

Main results:

* `ShardedSql.Select.labels_length` — **one label for each projection, selected or added**.
-/

import ShardedSql.Signed
import ShardedSql.Statement.Segment
import ShardedSql.Value.Order

set_option relaxedAutoImplicit false
set_option autoImplicit false

namespace ShardedSql

/-! ### Projections -/

/-- The aggregate functions. -/
inductive AggregationKind where
  | count
  | sum
  | max
  | min
  | avg
  deriving Repr, DecidableEq, Inhabited

/-- The name of an aggregate function. -/
def AggregationKind.name : AggregationKind → String
  | .count => "COUNT"
  | .sum => "SUM"
  | .max => "MAX"
  | .min => "MIN"
  | .avg => "AVG"

/-- An item of the select list. -/
inductive Projection where
  | column (owner : Option String) (name : String) (alias? : Option String) (start stop : Nat)
  /-- An aggregation: `text` is the whole of it, `inner` what is aggregated. -/
  | aggregation (kind : AggregationKind) (distinct : Bool) (text inner : String)
      (alias? : Option String) (start stop : Nat)
  /-- All columns, of all tables or of one. -/
  | star (owner : Option String) (start stop : Nat)
  | expression (text : String) (alias? : Option String) (start stop : Nat)
  deriving Repr, DecidableEq, Inhabited

namespace Projection

/-- A column at a place. -/
def ofColumn (name : String) (start : Nat) : Projection :=
  .column none name none start (start + name.utf8ByteSize - 1)

/-- An aggregation at a place. -/
def ofAggregation (kind : AggregationKind) (distinct : Bool) (inner text : String)
    (start : Nat) : Projection :=
  .aggregation kind distinct text inner none start (start + text.utf8ByteSize - 1)

/-- The item under another alias; all columns have none. -/
def withAlias (new : String) : Projection → Projection
  | .column owner name _ start stop => .column owner name (some new) start stop
  | .aggregation kind distinct text inner _ start stop =>
      .aggregation kind distinct text inner (some new) start stop
  | .star owner start stop => .star owner start stop
  | .expression text _ start stop => .expression text (some new) start stop

/-- The alias of an item. -/
def alias? : Projection → Option String
  | .column _ _ alias? _ _ => alias?
  | .aggregation _ _ _ _ alias? _ _ => alias?
  | .star _ _ _ => none
  | .expression _ alias? _ _ => alias?

/-- The place of the last byte. -/
def stop : Projection → Nat
  | .column _ _ _ _ stop => stop
  | .aggregation _ _ _ _ _ _ stop => stop
  | .star _ _ stop => stop
  | .expression _ _ _ stop => stop

/-- The item is all columns. -/
def isStar : Projection → Bool
  | .star _ _ _ => true
  | _ => false

/-- The label of the column that a shard returns for the item.  An aggregation of distinct values
is replaced by what is aggregated, under an alias that is given for it. -/
def label (distinctAlias : Option String) : Projection → Option String
  | .column _ name alias? _ _ => some (alias?.getD name)
  | .aggregation _ distinct text _ alias? _ _ =>
      if distinct then alias? <|> distinctAlias else some (alias?.getD text)
  | .star _ _ _ => none
  | .expression text alias? _ _ => some (alias?.getD text)

/-- Whether an item is selected under a name, as a column or by its alias. -/
def isCalled (name : String) (p : Projection) : Bool :=
  (match p with
    | .column _ selected _ _ _ => Text.sameName selected name
    | _ => false) || p.alias?.any fun a => Text.sameName a name

end Projection

/-- The select list. -/
structure Projections where
  start : Nat := 0
  /-- The place of the last byte, after which columns are added. -/
  stop : Nat := 0
  /-- Whether equal rows are returned once. -/
  distinctRows : Bool := false
  items : List Projection := []
  deriving Repr, DecidableEq, Inhabited

/-! ### Order -/

/-- The directions of an order. -/
inductive Direction where
  | asc
  | desc
  deriving Repr, DecidableEq, Inhabited

/-- What rows are ordered by. -/
inductive OrderKey where
  | column (owner : Option String) (name : String)
  /-- A place in the select list, counted from one. -/
  | position (n : Nat)
  deriving Repr, DecidableEq, Inhabited

/-- The name of a column with its qualifier. -/
def qualifiedName (owner : Option String) (name : String) : String :=
  match owner with
  | some owner => owner ++ "." ++ name
  | none => name

/-- An item of `ORDER BY` or `GROUP BY`. -/
structure OrderItem where
  key : OrderKey
  direction : Direction := .asc
  /-- Where null stands, when the item says so. -/
  nulls : Option NullPlacement := none
  deriving Repr, DecidableEq, Inhabited

namespace OrderItem

/-- Ascending by a column. -/
def asc (name : String) : OrderItem := { key := .column none name }

/-- Descending by a column. -/
def desc (name : String) : OrderItem := { key := .column none name, direction := .desc }

/-- The item as text of a statement. -/
def render (i : OrderItem) : String :=
  let key :=
    match i.key with
    | .column owner name => qualifiedName owner name
    | .position n => toString n
  let direction :=
    match i.direction with
    | .asc => "ASC"
    | .desc => "DESC"
  key ++ " " ++ direction

/-- The items name the same column or place.  Qualifiers are not looked at. -/
def sameKey (a b : OrderItem) : Bool :=
  match a.key, b.key with
  | .column _ x, .column _ y => Text.sameName x y
  | .position x, .position y => x = y
  | _, _ => false

/-- The items name the same column or place in the same direction. -/
def sameItem (a b : OrderItem) : Bool := sameKey a b && a.direction = b.direction

end OrderItem

/-! ### Pagination -/

/-- The ways to ask for a part of the rows. -/
inductive PaginationStyle where
  /-- So many rows after so many others. -/
  | limit
  /-- Bounds on the number of a row. -/
  | rowNumber
  /-- The first rows, with a bound on the number of a row. -/
  | top
  deriving Repr, DecidableEq, Inhabited

/-- A number of the pagination. -/
inductive PageNumber where
  | literal (n : Int)
  /-- The parameter with a number. -/
  | marker (index : Nat)
  deriving Repr, DecidableEq, Inhabited

/-- A bound of the pagination. -/
structure PageBound where
  number : PageNumber
  start : Nat
  stop : Nat
  /-- The bound does not include the number itself. -/
  opened : Bool := false
  deriving Repr, DecidableEq, Inhabited

namespace PageBound

/-- A bound that is a literal. -/
def ofLiteral (n : Int) (start stop : Nat) : PageBound := ⟨.literal n, start, stop, false⟩

/-- A bound that is a marker. -/
def ofMarker (index start : Nat) : PageBound := ⟨.marker index, start, start, false⟩

/-- The bound without the number itself. -/
def open' (b : PageBound) : PageBound := { b with opened := true }

/-- The number of a bound. -/
def resolve (parameters : List Value) (b : PageBound) : Outcome Int :=
  match b.number with
  | .literal n => .ok n
  | .marker index =>
      match parameters[index]? with
      | some v => v.toInt.map (·.toInt)
      | none =>
          .error ((Fault.internal "Missing parameter for pagination value").note
            "parameter_index" (toString index))

end PageBound

/-- The clause that asks for a part of the rows. -/
structure Pagination where
  style : PaginationStyle
  offset : Option PageBound := none
  rowCount : Option PageBound := none
  deriving Repr, DecidableEq, Inhabited

/-! ### Statements -/

/-- A statement that selects rows. -/
structure Select where
  tables : List TableRef := []
  projections : Projections := {}
  condition : Option Predicate := none
  groupBy : List OrderItem := []
  /-- The place of the last byte of `GROUP BY`, after which an order is added. -/
  groupByStop : Option Nat := none
  orderBy : List OrderItem := []
  pagination : Option Pagination := none
  /-- The rows are locked, so the statement counts as a write. -/
  lock : Bool := false
  deriving Repr, Inhabited

/-- Why a column is added to the select list. -/
inductive DerivedKind where
  | avgCount
  | avgSum
  | orderBy
  | groupBy
  deriving Repr, DecidableEq, Inhabited

/-- A column that is added to the select list. -/
structure DerivedProjection where
  kind : DerivedKind
  expression : String
  label : String
  deriving Repr, DecidableEq, Inhabited

/-- The column as text of a statement. -/
def DerivedProjection.render (d : DerivedProjection) : String :=
  d.expression ++ " AS " ++ d.label

/-- What merging has to aggregate. -/
structure Aggregation where
  kind : AggregationKind
  distinct : Bool
  /-- The label of the column with the value, or with what is aggregated of distinct values. -/
  label : String
  /-- The labels of the count and the sum of an average. -/
  average : Option (String × String)
  deriving Repr, DecidableEq, Inhabited

namespace Select

/-! ### Aggregations -/

/-- The alias of the count behind an average. -/
def avgCountAlias (n : Nat) : String := "AVG_DERIVED_COUNT_" ++ toString n

/-- The alias of the sum behind an average. -/
def avgSumAlias (n : Nat) : String := "AVG_DERIVED_SUM_" ++ toString n

/-- The alias of what is aggregated of distinct values. -/
def distinctAlias (n : Nat) : String := "AGGREGATION_DISTINCT_DERIVED_" ++ toString n

/-- An item of the select list with the number of averages and of aggregations of distinct values
before it. -/
structure Numbered where
  item : Projection
  averages : Nat
  distincts : Nat
  deriving Repr, DecidableEq

/-- Numbers the items of a select list. -/
def number (averages distincts : Nat) : List Projection → List Numbered
  | [] => []
  | p :: rest =>
      let (a, d) : Nat × Nat :=
        match p with
        | .aggregation _ true _ _ _ _ _ => (averages, distincts + 1)
        | .aggregation .avg false _ _ _ _ _ => (averages + 1, distincts)
        | _ => (averages, distincts)
      ⟨p, averages, distincts⟩ :: number a d rest

@[simp] theorem number_length (a d : Nat) (items : List Projection) :
    (number a d items).length = items.length := by
  induction items generalizing a d with
  | nil => rfl
  | cons p rest ih => simp [number, ih]

/-- The items of the select list, numbered. -/
def numbered (s : Select) : List Numbered := number 0 0 s.projections.items

/-- The columns that are added for an item. -/
def Numbered.derived (n : Numbered) : List DerivedProjection :=
  match n.item with
  | .aggregation .avg false _ inner _ _ _ =>
      [⟨.avgCount, "COUNT(" ++ inner ++ ")", avgCountAlias n.averages⟩,
        ⟨.avgSum, "SUM(" ++ inner ++ ")", avgSumAlias n.averages⟩]
  | _ => []

/-- What has to be aggregated for an item. -/
def Numbered.aggregation? (n : Numbered) : Option Aggregation :=
  match n.item with
  | .aggregation kind true _ _ alias? _ _ =>
      some ⟨kind, true, alias?.getD (distinctAlias n.distincts), none⟩
  | .aggregation .avg false text _ alias? _ _ =>
      some ⟨.avg, false, alias?.getD text,
        some (avgCountAlias n.averages, avgSumAlias n.averages)⟩
  | .aggregation kind false text _ alias? _ _ => some ⟨kind, false, alias?.getD text, none⟩
  | _ => none

/-- The alias given to what an item aggregates of distinct values. -/
def Numbered.distinctAlias? (n : Numbered) : Option String :=
  match n.item with
  | .aggregation _ true _ _ _ _ _ => some (distinctAlias n.distincts)
  | _ => none

/-- What merging has to aggregate, in the order of the select list. -/
def aggregations (s : Select) : List Aggregation := s.numbered.filterMap Numbered.aggregation?

/-- The aliases given to what is aggregated of distinct values, for each item. -/
def distinctAliases (s : Select) : List (Option String) := s.numbered.map Numbered.distinctAlias?

/-- Something is aggregated. -/
def hasAggregation (s : Select) : Bool := !s.aggregations.isEmpty

/-! ### Order -/

/-- The order is taken from the groups, as no other is given. -/
def orderGenerated (s : Select) : Bool := s.orderBy.isEmpty && !s.groupBy.isEmpty

/-- The order of the rows: the one given, or that of the groups. -/
def order (s : Select) : List OrderItem := if s.orderGenerated then s.groupBy else s.orderBy

/-- The text that is added after the groups when the order is taken from them. -/
def generatedOrderText (s : Select) : Option String :=
  if s.orderGenerated then some (" ORDER BY " ++ ", ".intercalate (s.order.map OrderItem.render))
  else none

/-- The expression of an order item that neither the select list nor a column added so far
holds. -/
def missing? (items : List Projection) (derived : List DerivedProjection) (i : OrderItem) :
    Option String :=
  match i.key with
  | .position _ => none
  | .column owner name =>
      let expression := qualifiedName owner name
      if items.any (Projection.isCalled name) ||
          derived.any fun d => Text.sameName d.expression expression then none
      else some expression

/-- The columns added so far, and after them those that order items need.  They are numbered from
`n` on. -/
def addMissing (kind : DerivedKind) (stem : String) (items : List Projection) (n : Nat)
    (derived : List DerivedProjection) : List OrderItem → List DerivedProjection
  | [] => derived
  | i :: rest =>
      match missing? items derived i with
      | some expression =>
          addMissing kind stem items (n + 1)
            (derived ++ [⟨kind, expression, stem ++ toString n⟩]) rest
      | none => addMissing kind stem items n derived rest

/-- The columns that are added to the select list.  Where all columns are selected none is added
for the order and the groups. -/
def derived (s : Select) : List DerivedProjection :=
  let items := s.projections.items
  let averages := s.numbered.flatMap Numbered.derived
  if items.any Projection.isStar then averages
  else
    addMissing .groupBy "GROUP_BY_DERIVED_" items 0
      (addMissing .orderBy "ORDER_BY_DERIVED_" items 0 averages s.order) s.groupBy

/-- The labels of the columns that a shard returns; all columns have none. -/
def labels (s : Select) : List (Option String) :=
  (s.numbered.map fun n => n.item.label n.distinctAlias?) ++
    s.derived.map fun d => some d.label

@[simp] theorem labels_length (s : Select) :
    s.labels.length = s.projections.items.length + s.derived.length := by
  simp [labels, numbered]

/-! ### Groups -/

/-- There are groups, and the rows are ordered by them. -/
def groupsAreOrdered (s : Select) : Bool :=
  !s.groupBy.isEmpty && s.groupBy.length = s.order.length &&
    (s.groupBy.zip s.order).all fun p => p.1.sameItem p.2

/-- Shards have to return all rows, as groups are complete only then. -/
def needsAllRows (s : Select) : Bool :=
  (!s.groupBy.isEmpty || s.hasAggregation) && !s.groupsAreOrdered

end Select

/-! ### Windows -/

/-- The pagination with its parameters filled in. -/
structure Window where
  clause : Pagination
  offset : Option Int
  rowCount : Option Int
  deriving Repr, DecidableEq, Inhabited

namespace Window

/-- Fills the parameters in, the offset first. -/
def resolve (p : Pagination) (parameters : List Value) : Outcome Window := do
  let offset ← p.offset.mapM (PageBound.resolve parameters)
  let rowCount ← p.rowCount.mapM (PageBound.resolve parameters)
  pure ⟨p, offset, rowCount⟩

/-- Some bound is given. -/
def isGiven (w : Window) : Bool := w.offset.isSome || w.rowCount.isSome

/-- How many rows are skipped.  An open bound does not skip the row with its number. -/
def skipped (w : Window) : Int :=
  match w.clause.offset, w.offset with
  | some bound, some n => max (if bound.opened then n - 1 else n) 0
  | _, _ => 0

/-- The number of rows as it is written.  An open bound on the number of a row is one less. -/
def written? (w : Window) : Option Int :=
  match w.clause.rowCount, w.rowCount with
  | some bound, some n =>
      some (if bound.opened && w.clause.style = .rowNumber then n - 1 else n)
  | _, _ => none

/-- The offset that shards are asked for. -/
def shardOffset (_ : Window) : Int := 0

/-- The number of rows that shards are asked for, so that the window can be cut out of the merged
rows. -/
def shardRowCount? (w : Window) (s : Select) : Option Int :=
  w.written?.map fun n =>
    if s.needsAllRows then Signed.greatest
    else
      match w.clause.style with
      | .limit => Signed.held (w.skipped + n)
      | .rowNumber => n
      | .top => n

end Window

/-- The window of a statement, when it has one. -/
def Select.window (s : Select) (parameters : List Value) : Outcome (Option Window) :=
  s.pagination.mapM fun p => Window.resolve p parameters

end ShardedSql
