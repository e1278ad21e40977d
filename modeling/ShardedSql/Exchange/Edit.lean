/-
**Placements and edits in exchange form.**

Main definitions:

* `ShardedSql.Exchange.placement`, `ShardedSql.Exchange.ofPlacement` — reading and writing a
  placement;
* `ShardedSql.Exchange.edit`, `ShardedSql.Exchange.ofEdit` — reading and writing an edit, tagged by
  its kind.
-/

import ShardedSql.Edit
import ShardedSql.Exchange.Statement

set_option relaxedAutoImplicit false
set_option autoImplicit false

namespace ShardedSql.Exchange

/-! ### Placements -/

/-- Reads a renaming. -/
def renamingOf (d : Document) : Renaming := ⟨(d.item 0).asText, (d.item 1).asText⟩

/-- Writes a renaming. -/
def ofRenaming (t : Renaming) : Document := Document.ofTexts [t.logic, t.actual]

/-- Reads a placement. -/
def placement (d : Document) : Placement :=
  ⟨renamingOf (d.field "ds"), d.listAt "tables" renamingOf⟩

/-- Writes a placement. -/
def ofPlacement (p : Placement) : Document :=
  .record [("ds", ofRenaming p.source), ("tables", Document.ofList ofRenaming p.tables)]

/-! ### Rows -/

/-- Reads a value of a row that is written anew. -/
def rowValue : Document → RowValue
  | .text _ => .marker
  | d =>
      match d.field? "expr" with
      | some e => .expr (expr e)
      | none => .literal (value (d.field "lit"))

/-- Writes a value of a row that is written anew. -/
def ofRowValue : RowValue → Document
  | .expr e => .record [("expr", ofExpr e)]
  | .literal v => .record [("lit", ofValue v)]
  | .marker => .text "?"

/-- Reads a row that is written anew. -/
def rowDraft (d : Document) : RowDraft := ⟨d.listAt "values" rowValue, d.listAt "nodes" node⟩

/-- Writes a row that is written anew. -/
def ofRowDraft (r : RowDraft) : Document :=
  .record [("values", Document.ofList ofRowValue r.values),
    ("nodes", Document.ofList ofNode r.nodes)]

/-! ### Edits -/

/-- Reads an edit. -/
def edit (d : Document) : Edit :=
  let start := d.natAt "start"
  let stop := d.natAt "stop"
  match d.textAt "t" with
  | "table" => .table start stop (d.textAt "logic")
  | "projections" => .projections start (d.textsAt "items")
  | "order_by" => .orderBy start (d.textAt "text")
  | "agg_distinct" => .distinctAggregation start stop (d.textAt "text")
  | "offset" => .offset start stop (d.field "revised").asInt
  | "row_count" => .rowCount start stop (d.field "revised").asInt
  | "insert_columns" => .insertColumns start (d.textsAt "columns")
  | "key_assignment" => .keyAssignment start (d.textAt "column") (rowValue (d.field "value"))
  | "insert_values" => .insertRows start stop (d.listAt "rows" rowDraft)
  | _ => .encryption start stop (d.textAt "text")

/-- What an edit puts in its place. -/
def ofContent : Edit → List (String × Document)
  | .table _ _ logic => [("t", .text "table"), ("logic", .text logic)]
  | .projections _ items => [("t", .text "projections"), ("items", .ofTexts items)]
  | .orderBy _ text => [("t", .text "order_by"), ("text", .text text)]
  | .distinctAggregation _ _ text => [("t", .text "agg_distinct"), ("text", .text text)]
  | .offset _ _ revised => [("t", .text "offset"), ("revised", .integer revised)]
  | .rowCount _ _ revised => [("t", .text "row_count"), ("revised", .integer revised)]
  | .insertColumns _ columns => [("t", .text "insert_columns"), ("columns", .ofTexts columns)]
  | .keyAssignment _ column v =>
      [("t", .text "key_assignment"), ("column", .text column), ("value", ofRowValue v)]
  | .insertRows _ _ rows => [("t", .text "insert_values"), ("rows", .ofList ofRowDraft rows)]
  | .encryption _ _ text => [("t", .text "encrypt"), ("text", .text text)]

/-- Writes an edit. -/
def ofEdit (e : Edit) : Document :=
  let stop := e.stop?.toList.map fun n => ("stop", Document.ofNat n)
  .record (("start", .ofNat e.start) :: stop ++ ofContent e)

end ShardedSql.Exchange
