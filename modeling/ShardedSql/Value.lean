/-
**The values that flow through the kernel.**

A value is a bound parameter, a literal that a column is compared with, a generated key or a cell of
a physical row.  Two values are equal when they are stored alike; the order of values is
`ShardedSql/Value/Order.lean`.

Main definitions:

* `ShardedSql.Value` — null, truth values, integers of 64 bits, floating point, text and bytes;
* `ShardedSql.Value.render` — a value as it is shown to a user;
* `ShardedSql.Value.toInt`, `ShardedSql.Value.toFloat` — a value read as an integer or as a number;
* `ShardedSql.Value.literal` — a value as a literal of SQL;
* `ShardedSql.Value.canonicalBytes`, `ShardedSql.Value.hash` — what checksums and hashes are taken
  of.
-/

import ShardedSql.Fault
import ShardedSql.Text.Blank
import ShardedSql.Text.Integer
import ShardedSql.Text.Utf8
import ShardedSql.Text.Hex
import ShardedSql.Decimal.Shortest
import ShardedSql.Decimal.Reader

set_option relaxedAutoImplicit false
set_option autoImplicit false

namespace ShardedSql

open Decimal (Binary64)

/-- A single value. -/
inductive Value where
  | null
  | bool (b : Bool)
  | int (n : Int64)
  | float (x : Binary64)
  | text (s : String)
  | bytes (bs : List UInt8)
  deriving DecidableEq, Repr, Inhabited

namespace Value

/-! ### Kinds -/

/-- The value is null. -/
def isNull : Value → Bool
  | .null => true
  | _ => false

/-- The value is an integer or in floating point. -/
def isNumeric : Value → Bool
  | .int _ => true
  | .float _ => true
  | _ => false

/-- The value is an integer. -/
def isInt : Value → Bool
  | .int _ => true
  | _ => false

/-- The value is a number in floating point. -/
def isFloat : Value → Bool
  | .float _ => true
  | _ => false

/-! ### Text -/

/-- The text of a truth value. -/
def boolText (b : Bool) : String := if b then "true" else "false"

/-- The value as it is shown to a user.  Of bytes only the number is shown. -/
def render : Value → String
  | .null => "NULL"
  | .bool b => boolText b
  | .int n => toString n.toInt
  | .float x => x.text
  | .text s => s
  | .bytes bs => "<" ++ toString bs.length ++ " bytes>"

/-- The characters of a text with every quote written twice. -/
def doubleQuotes : List Char → List Char
  | [] => []
  | c :: rest => if c = '\'' then '\'' :: '\'' :: doubleQuotes rest else c :: doubleQuotes rest

/-- A text between quotes, the quotes inside it written twice. -/
def quoted (s : String) : String :=
  String.ofList ('\'' :: doubleQuotes s.toList ++ ['\''])

/-- The value as a literal of SQL. -/
def literal : Value → String
  | .null => "NULL"
  | .bool b => boolText b
  | .int n => toString n.toInt
  | .float x => x.text
  | .text s => quoted s
  | .bytes bs => "X'" ++ Text.hexUpper bs ++ "'"

/-! ### Numbers -/

/-- The fault of a value that stands for no integer. -/
def notAnInteger (v : Value) : Fault :=
  (Fault.internal "Value cannot be interpreted as an integer").note "value" v.render

/-- The fault of a value that stands for no number. -/
def notANumber (v : Value) : Fault :=
  (Fault.internal "Value cannot be interpreted as a number").note "value" v.render

/-- The integer that a value stands for: itself, a number without a fraction, a truth value as 0
or 1, or a text that is an integer between white space. -/
def toInt (v : Value) : Outcome Int64 :=
  match v with
  | .int n => .ok n
  | .float x => if x.isWhole then .ok x.toInt64 else .error v.notAnInteger
  | .bool b => .ok (if b then 1 else 0)
  | .text s =>
      match Text.readInt64? (Text.trim s) with
      | some n => .ok n
      | none => .error v.notAnInteger
  | _ => .error v.notAnInteger

/-- The number that a value stands for. -/
def toFloat (v : Value) : Outcome Binary64 :=
  match v with
  | .int n => .ok (.ofInt n.toInt)
  | .float x => .ok x
  | .text s =>
      match Decimal.readBinary64? (Text.trim s) with
      | some x => .ok x
      | none => .error v.notANumber
  | _ => .error v.notANumber

/-! ### Checksums and hashes -/

/-- The eight bytes of a word, the highest first. -/
def wordBytes (w : UInt64) : List UInt8 :=
  [56, 48, 40, 32, 24, 16, 8, 0].map fun (k : UInt64) => (w >>> k).toUInt8

/-- The bytes that checksums are taken of. -/
def canonicalBytes : Value → List UInt8
  | .null => []
  | .bool b => [if b then 1 else 0]
  | .int n => wordBytes n.toUInt64
  | .float x => wordBytes x.bits
  | .text s => Text.utf8 s
  | .bytes bs => bs

/-- The one or two units of sixteen bits that a character is written with. -/
def units16 (c : Char) : List UInt32 :=
  let n := c.toNat
  if n < 0x10000 then [UInt32.ofNat n]
  else
    let m := n - 0x10000
    [UInt32.ofNat (0xD800 + m / 0x400), UInt32.ofNat (0xDC00 + m % 0x400)]

/-- The rolling hash with base 31 over words of 32 bits. -/
def rollingHash (start : UInt32) (units : List UInt32) : UInt32 :=
  units.foldl (fun h u => h * 31 + u) start

/-- The distance of a word from zero when it is read with a sign. -/
def signedDistance (w : UInt32) : Nat :=
  if w.toNat < 0x80000000 then w.toNat else 0x100000000 - w.toNat

/-- A byte widened to a word with its sign. -/
def widenSigned (b : UInt8) : UInt32 :=
  if b < 0x80 then b.toUInt32 else b.toUInt32 ||| 0xFFFFFF00

/-- The hash by which values are placed.  Text and bytes use the rolling hash, which does not
change between processes. -/
def hash : Value → Nat
  | .null => 0
  | .bool b => if b then 1 else 0
  | .int n => n.toInt.natAbs
  | .float x => x.toInt64.toInt.natAbs
  | .text s => signedDistance (rollingHash 0 (s.toList.flatMap units16))
  | .bytes bs => signedDistance (rollingHash 1 (bs.map widenSigned))

end Value

end ShardedSql
