/-
**Values written as documents.**

A value is a record with one field, named for its kind: `Int64`, `Float64`, `Utf8`, `Boolean` or
`Binary`.  Null is the text `Null`, or a record with that field and nothing in it.

Main definitions:

* `ShardedSql.Value.ofDocument?` — reading a value;
* `ShardedSql.Value.parse?` — reading it from JSON text.
-/

import ShardedSql.Document.Reader
import ShardedSql.Signed
import ShardedSql.Value

set_option relaxedAutoImplicit false
set_option autoImplicit false

namespace ShardedSql.Value

/-- Reads a byte. -/
def byte? : Document → Option UInt8
  | .integer n => if 0 ≤ n ∧ n < 256 then some (UInt8.ofNat n.toNat) else none
  | _ => none

/-- Reads what the field of a kind holds. -/
def ofField? (kind : String) (d : Document) : Option Value :=
  match kind, d with
  | "Null", .null => some .null
  | "Boolean", .bool b => some (.bool b)
  | "Int64", .integer n => (Signed.word? n).map .int
  | "Float64", .integer n => some (.float (.ofInt n))
  | "Float64", .real x => some (.float x)
  | "Utf8", .text s => some (.text s)
  | "Binary", .list items => (items.mapM byte?).map .bytes
  | _, _ => none

/-- Reads a value. -/
def ofDocument? : Document → Option Value
  | .text "Null" => some .null
  | .record [(kind, d)] => ofField? kind d
  | _ => none

/-- Reads a value from JSON text. -/
def parse? (s : String) : Option Value := (Document.parse? s).bind ofDocument?

end ShardedSql.Value
