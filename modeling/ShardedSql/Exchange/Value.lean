/-
**Values in exchange form.**

Null, truth values, integers and texts are written as they are.  Numbers in floating point are a
record with their bits in hexadecimal digits under `f`, and bytes are one with their digits under
`b`.

Main definitions:

* `ShardedSql.Exchange.value`, `ShardedSql.Exchange.ofValue` — reading and writing a value;
* `ShardedSql.Exchange.range`, `ShardedSql.Exchange.ofRange` — the same for a range;
* `ShardedSql.Exchange.constraint?`, `ShardedSql.Exchange.ofConstraint` — the same for what is known
  of a column.
-/

import ShardedSql.DataNode
import ShardedSql.Document.Reader
import ShardedSql.Exchange.Fields
import ShardedSql.Strategy

set_option relaxedAutoImplicit false
set_option autoImplicit false

namespace ShardedSql.Exchange

open Decimal (Binary64)

/-- The bytes of hexadecimal digits. -/
def hexBytes : List Char → List UInt8
  | a :: b :: rest =>
      let digit (c : Char) : Nat := (Document.hexValue? c).getD 0
      UInt8.ofNat (digit a * 16 + digit b) :: hexBytes rest
  | _ => []

/-- The word of some bytes, the highest first. -/
def wordOf (bytes : List UInt8) : UInt64 :=
  UInt64.ofNat (bytes.foldl (fun n b => n * 256 + b.toNat) 0)

/-- Reads a value. -/
def value : Document → Value
  | .null => .null
  | .bool b => .bool b
  | .integer n => .int (Int64.ofInt n)
  | .text s => .text s
  | .record fields =>
      match (Document.record fields).textAt? "f" with
      | some digits => .float ⟨wordOf (hexBytes digits.toList)⟩
      | none => .bytes (hexBytes ((Document.record fields).textAt "b").toList)
  | _ => .null

/-- Values in a field. -/
def valuesAt (d : Document) (name : String) : List Value := d.listAt name value

/-- Writes bytes. -/
def ofBytes (bytes : List UInt8) : Document := .text (Text.hexLower bytes)

/-- Writes a value.  What is not a number is written alike. -/
def ofValue : Value → Document
  | .null => .null
  | .bool b => .bool b
  | .int n => .integer n.toInt
  | .float x =>
      .record [("f", if x.isNaN then .text "nan" else ofBytes (Value.float x).canonicalBytes)]
  | .text s => .text s
  | .bytes bs => .record [("b", ofBytes bs)]

/-- Writes values. -/
def ofValues (vs : List Value) : Document := Document.ofList ofValue vs

/-! ### Ranges -/

/-- Reads the end of a range. -/
def bound (d : Document) : Bound :=
  match (d.item 0).text? with
  | some "inc" => .inclusive (value (d.item 1))
  | some "exc" => .exclusive (value (d.item 1))
  | _ => .unbounded

/-- Reads a range. -/
def range (d : Document) : Range := ⟨bound (d.field "lower"), bound (d.field "upper")⟩

/-- Writes the end of a range. -/
def ofBound : Bound → Document
  | .unbounded => .null
  | .inclusive v => .list [.text "inc", ofValue v]
  | .exclusive v => .list [.text "exc", ofValue v]

/-- Writes a range. -/
def ofRange (r : Range) : Document :=
  .record [("lower", ofBound r.lower), ("upper", ofBound r.upper)]

/-- Reads what is known of a column. -/
def constraint? (d : Document) : Option Constraint :=
  match d.field? "list", d.field? "range" with
  | some vs, _ => some (.oneOf (vs.items.map value))
  | none, some r => some (.within (range r))
  | none, none => none

/-- Writes what is known of a column. -/
def ofConstraint : Constraint → Document
  | .oneOf vs => .record [("list", ofValues vs)]
  | .within r => .record [("range", ofRange r)]

/-! ### Nodes -/

/-- Reads a data node. -/
def node (d : Document) : DataNode := ⟨(d.item 0).asText, (d.item 1).asText⟩

/-- Writes a data node. -/
def ofNode (n : DataNode) : Document := Document.ofTexts [n.dataSource, n.table]

end ShardedSql.Exchange
