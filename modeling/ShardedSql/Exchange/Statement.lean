/-
**Statements in exchange form.**

Main definitions:

* `ShardedSql.Exchange.statement` — reading a statement, tagged by its kind;
* `ShardedSql.Exchange.sql` — reading it with its text and parameters;
* `ShardedSql.Exchange.ofExpr`, `ShardedSql.Exchange.ofOrderItem` — writing expressions and items
  of an order.
-/

import ShardedSql.Exchange.Value
import ShardedSql.Statement

set_option relaxedAutoImplicit false
set_option autoImplicit false

namespace ShardedSql.Exchange

/-! ### Pieces -/

/-- Reads a table. -/
def tableRef (d : Document) : TableRef :=
  ⟨d.textAt "name", d.textAt? "alias", d.natAt "start", d.natAt "stop"⟩

/-- Reads a column. -/
def columnRef (d : Document) : ColumnRef :=
  ⟨d.textAt? "owner", d.textAt "name", d.natAt "start", d.natAt "stop"⟩

/-- Reads an expression. -/
def expr (d : Document) : Expr :=
  match d.textAt? "complex", d.natAt? "param" with
  | some s, _ => .raw s (d.natAt "start") (d.natAt "stop")
  | none, some i => .marker i (d.natAt "start") (d.natAt "stop")
  | none, none => .literal (value (d.field "lit")) (d.natAt "start") (d.natAt "stop")

/-- Writes an expression. -/
def ofExpr (e : Expr) : Document :=
  let content : String × Document :=
    match e with
    | .literal v _ _ => ("lit", ofValue v)
    | .marker i _ _ => ("param", .ofNat i)
    | .raw t _ _ => ("complex", .text t)
  .record [content, ("start", .ofNat e.start), ("stop", .ofNat e.stop)]

/-- Reads an assignment. -/
def assignment (d : Document) : Assignment := ⟨columnRef (d.field "col"), expr (d.field "value")⟩

/-! ### Predicates -/

/-- Reads a comparison. -/
def comparison (s : String) : Comparison :=
  match s with
  | "=" => .eq
  | "!=" => .ne
  | "<" => .lt
  | "<=" => .le
  | ">" => .gt
  | _ => .ge

/-- Reads a predicate without parts, which the fields of a record say of a column. -/
def simplePredicate (d : Document) : Predicate :=
  let column := columnRef (d.field "col")
  match d.textAt? "cmp", d.field? "in", d.field? "between" with
  | some op, _, _ => .compare column (comparison op) (expr (d.field "right"))
  | none, some es, _ => .oneOf column (es.items.map expr) (d.boolAt "not")
  | none, none, some es =>
      .between column (expr (es.item 0)) (expr (es.item 1)) (d.boolAt "not")
  | none, none, none => .other

mutual

/-- Reads a predicate. -/
def predicate : Document → Predicate
  | .record [("and", .list parts)] => .and (predicates parts)
  | .record [("or", .list parts)] => .or (predicates parts)
  | d => simplePredicate d

/-- Reads the parts of a predicate. -/
def predicates : List Document → List Predicate
  | [] => []
  | d :: rest => predicate d :: predicates rest

end

/-! ### Clauses -/

/-- Reads an aggregate function. -/
def aggregationKind (s : String) : AggregationKind :=
  match s with
  | "COUNT" => .count
  | "SUM" => .sum
  | "MAX" => .max
  | "MIN" => .min
  | _ => .avg

/-- Reads an item of the select list. -/
def projection (d : Document) : Projection :=
  let alias? := d.textAt? "alias"
  let start := d.natAt "start"
  let stop := d.natAt "stop"
  match d.textAt "p" with
  | "column" => .column (d.textAt? "owner") (d.textAt "name") alias? start stop
  | "agg" =>
      .aggregation (aggregationKind (d.textAt "kind")) (d.boolAt "distinct") (d.textAt "expr")
        (d.textAt "inner") alias? start stop
  | "star" => .star (d.textAt? "owner") start stop
  | _ => .expression (d.textAt "text") alias? start stop

/-- Reads a select list. -/
def projections (d : Document) : Projections :=
  ⟨d.natAt "start", d.natAt "stop", d.boolAt "distinct", d.listAt "items" projection⟩

/-- Reads where null stands. -/
def nulls? (d : Document) : Option NullPlacement :=
  match d.textAt? "nulls" with
  | some "first" => some .first
  | some "last" => some .last
  | _ => none

/-- Reads a direction. -/
def direction (d : Document) : Direction := if d.textAt "dir" = "desc" then .desc else .asc

/-- Reads an item of an order. -/
def orderItem (d : Document) : OrderItem :=
  let key : OrderKey :=
    match d.natAt? "pos" with
    | some n => .position n
    | none => .column (d.textAt? "owner") (d.textAt "name")
  ⟨key, direction d, nulls? d⟩

/-- Writes an item of an order. -/
def ofOrderItem (i : OrderItem) : Document :=
  let key : Document :=
    match i.key with
    | .position n => .ofNat n
    | .column owner name => .list [.ofOption .text owner, .text name]
  .list [key, .text (if i.direction = .asc then "asc" else "desc"),
    .ofOption (fun n => .text (if n = NullPlacement.first then "first" else "last")) i.nulls]

/-- Reads a bound of the pagination. -/
def pageBound (d : Document) : PageBound :=
  let number : PageNumber :=
    match d.natAt? "param" with
    | some i => .marker i
    | none => .literal (d.field "lit").asInt
  ⟨number, d.natAt "start", d.natAt "stop", d.boolAt "opened"⟩

/-- Reads the pagination. -/
def pagination (d : Document) : Pagination :=
  let style : PaginationStyle :=
    match d.textAt "style" with
    | "rownum" => .rowNumber
    | "top" => .top
    | _ => .limit
  ⟨style, d.optionAt "offset" pageBound, d.optionAt "row_count" pageBound⟩

/-! ### Statements -/

/-- Reads a row of `VALUES`. -/
def insertRow (d : Document) : InsertRow :=
  ⟨d.listAt "exprs" expr, d.natAt "start", d.natAt "stop"⟩

/-- Reads the clause `SET`. -/
def setClause (d : Document) : SetClause :=
  ⟨d.listAt "assignments" assignment, d.natAt "start", d.natAt "stop"⟩

/-- Reads a statement that inserts rows. -/
def insert (d : Document) : Insert where
  table := tableRef (d.field "table")
  columns := d.listAt "columns" columnRef
  columnsStop := d.natAt? "columns_stop"
  values := d.listAt "values" insertRow
  set := d.optionAt "set" setClause
  onDuplicate := d.listAt "on_dup" assignment

/-- Reads a statement that selects rows. -/
def select (d : Document) : Select where
  tables := d.listAt "tables" tableRef
  projections := projections (d.field "projections")
  condition := d.optionAt "where" predicate
  groupBy := d.listAt "group_by" orderItem
  groupByStop := d.natAt? "group_by_stop"
  orderBy := d.listAt "order_by" orderItem
  pagination := d.optionAt "pagination" pagination
  lock := d.boolAt "lock"

/-- Reads a statement, tagged by its kind. -/
def statement (d : Document) : Statement :=
  let tables := d.listAt "tables" tableRef
  let condition := d.optionAt "where" predicate
  match d.textAt "kind" with
  | "select" => .select (select d)
  | "insert" => .insert (insert d)
  | "update" => .update ⟨tables, d.listAt "assignments" assignment, condition⟩
  | "delete" => .delete ⟨tables, condition⟩
  | "ddl" => .ddl tables
  | _ => .dcl tables

/-- Reads a statement with its text and parameters. -/
def sql (d : Document) : LogicalSql :=
  ⟨d.textAt "sql", statement (d.field "statement"), valuesAt d "params"⟩

end ShardedSql.Exchange
