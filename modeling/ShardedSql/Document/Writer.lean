/-
**Writing documents as JSON text.**

Main definitions:

* `ShardedSql.Document.render` — the text of a document, without blanks;
* `ShardedSql.Document.quote` — a text between quotes.
-/

import ShardedSql.Decimal.Shortest
import ShardedSql.Document
import ShardedSql.Text.Hex

set_option relaxedAutoImplicit false
set_option autoImplicit false

namespace ShardedSql.Document

/-- The characters that a character is written with inside a text. -/
def escape (c : Char) : List Char :=
  if c = '"' then ['\\', '"']
  else if c = '\\' then ['\\', '\\']
  else if c.toNat < 0x20 then
    ['\\', 'u', '0', '0', Text.hexDigit 'a' (c.toNat / 16), Text.hexDigit 'a' (c.toNat % 16)]
  else [c]

/-- A text between quotes. -/
def quote (s : String) : String := "\"" ++ String.ofList (s.toList.flatMap escape) ++ "\""

/-- A number in floating point, null if it is none. -/
def renderReal (x : Decimal.Binary64) : String := if x.isFinite then x.text else "null"

mutual

/-- The text of a document, without blanks. -/
def render : Document → String
  | .null => "null"
  | .bool b => if b then "true" else "false"
  | .integer n => toString n
  | .real x => renderReal x
  | .text s => quote s
  | .list items => "[" ++ ",".intercalate (renderItems items) ++ "]"
  | .record fields => "\x7b" ++ ",".intercalate (renderFields fields) ++ "\x7d"

/-- The texts of some documents. -/
def renderItems : List Document → List String
  | [] => []
  | d :: rest => d.render :: renderItems rest

/-- The texts of some fields. -/
def renderFields : List (String × Document) → List String
  | [] => []
  | (name, d) :: rest => (quote name ++ ":" ++ d.render) :: renderFields rest

end

end ShardedSql.Document
