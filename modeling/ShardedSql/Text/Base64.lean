/-
**Bytes as text in the standard Base64 alphabet.**

Three bytes are four symbols; a last group of one or two bytes is filled up with `=`.  Reading
accepts exactly the texts that writing produces: the fill is required, and the bits of the last
symbol that belong to no byte have to be zero.

Main definitions:

* `ShardedSql.Text.toBase64` — writing;
* `ShardedSql.Text.Base64Fault` — why a text is not in this form, with its words;
* `ShardedSql.Text.ofBase64` — reading.
-/

import ShardedSql.Text.Utf8

set_option relaxedAutoImplicit false
set_option autoImplicit false

namespace ShardedSql.Text

/-! ### Writing -/

/-- The symbol of a number below 64. -/
def base64Symbol (n : Nat) : Char :=
  if n < 26 then Char.ofNat (65 + n)
  else if n < 52 then Char.ofNat (97 + (n - 26))
  else if n < 62 then Char.ofNat (48 + (n - 52))
  else if n = 62 then '+' else '/'

/-- The symbols of some bytes, filled up to whole groups of four. -/
def base64Chars : List UInt8 → List Char
  | [] => []
  | [a] =>
      [base64Symbol (a.toNat / 4), base64Symbol (a.toNat % 4 * 16), '=', '=']
  | [a, b] =>
      [base64Symbol (a.toNat / 4), base64Symbol (a.toNat % 4 * 16 + b.toNat / 16),
        base64Symbol (b.toNat % 16 * 4), '=']
  | a :: b :: c :: rest =>
      base64Symbol (a.toNat / 4) :: base64Symbol (a.toNat % 4 * 16 + b.toNat / 16) ::
        base64Symbol (b.toNat % 16 * 4 + c.toNat / 64) :: base64Symbol (c.toNat % 64) ::
        base64Chars rest

/-- The text of some bytes. -/
def toBase64 (bytes : List UInt8) : String := String.ofList (base64Chars bytes)

/-! ### Reading -/

/-- Why a text is not in Base64. -/
inductive Base64Fault where
  /-- A byte that is no symbol at its place. -/
  | invalidSymbol (offset : Nat) (byte : UInt8)
  /-- A group with a single symbol. -/
  | invalidLength (length : Nat)
  /-- A last symbol with bits that belong to no byte. -/
  | invalidLastSymbol (offset : Nat) (byte : UInt8)
  /-- A last group that is not filled up. -/
  | invalidPadding
  deriving DecidableEq, Repr

/-- The words for what is wrong with a text. -/
def Base64Fault.text : Base64Fault → String
  | .invalidSymbol offset byte =>
      "Invalid symbol " ++ toString byte.toNat ++ ", offset " ++ toString offset ++ "."
  | .invalidLength length => "Invalid input length: " ++ toString length
  | .invalidLastSymbol offset byte =>
      "Invalid last symbol " ++ toString byte.toNat ++ ", offset " ++ toString offset ++ "."
  | .invalidPadding => "Invalid padding"

/-- The number below 64 that a symbol stands for. -/
def base64Value? (b : UInt8) : Option Nat :=
  let n := b.toNat
  if 65 ≤ n && n ≤ 90 then some (n - 65)
  else if 97 ≤ n && n ≤ 122 then some (n - 97 + 26)
  else if 48 ≤ n && n ≤ 57 then some (n - 48 + 52)
  else if n = 43 then some 62
  else if n = 47 then some 63
  else none

/-- The byte of the fill sign. -/
def fillByte : UInt8 := 61

/-- The number of a symbol that stands at `offset`. -/
def base64Value (offset : Nat) (b : UInt8) : Except Base64Fault Nat :=
  match base64Value? b with
  | some v => .ok v
  | none => .error (.invalidSymbol offset b)

/-- The numbers of the symbols of the last group, which `offset` precedes, and how many fill signs
follow them.  `values` are the symbols read so far, the last first, with their bytes; `fills`
counts the fill signs so far, of which the first stands at `firstFill`. -/
def readLastGroup (start firstFill fills : Nat) (values : List (Nat × UInt8)) (offset : Nat) :
    List UInt8 → Except Base64Fault (List (Nat × UInt8) × Nat)
  | [] => .ok (values, fills)
  | b :: rest =>
      if b = fillByte then
        if offset - start < 2 then .error (.invalidSymbol offset b)
        else
          readLastGroup start (if fills = 0 then offset else firstFill) (fills + 1) values
            (offset + 1) rest
      else if fills > 0 then .error (.invalidSymbol firstFill fillByte)
      else do
        let v ← base64Value offset b
        readLastGroup start firstFill fills ((v, b) :: values) (offset + 1) rest

/-- The bytes of the last group, which begins at `offset` and has at most four symbols. -/
def decodeLastGroup (offset : Nat) (bytes : List UInt8) : Except Base64Fault (List UInt8) := do
  let (values, fills) ← readLastGroup offset offset 0 [] offset bytes
  let count := values.length
  if !bytes.isEmpty && count < 2 then throw (.invalidLength (offset + count))
  if (fills + count) % 4 ≠ 0 then throw .invalidPadding
  match values with
  | [(d, _), (c, _), (b, _), (a, _)] =>
      pure [UInt8.ofNat (a * 4 + b / 16), UInt8.ofNat (b % 16 * 16 + c / 4),
        UInt8.ofNat (c % 4 * 64 + d)]
  | [(c, last), (b, _), (a, _)] =>
      if c % 4 ≠ 0 then throw (.invalidLastSymbol (offset + 2) last)
      pure [UInt8.ofNat (a * 4 + b / 16), UInt8.ofNat (b % 16 * 16 + c / 4)]
  | [(b, last), (a, _)] =>
      if b % 16 ≠ 0 then throw (.invalidLastSymbol (offset + 1) last)
      pure [UInt8.ofNat (a * 4 + b / 16)]
  | _ => pure []

/-- The bytes of groups that begin at `offset`. -/
def decodeGroups (offset : Nat) : List UInt8 → Except Base64Fault (List UInt8)
  | a :: b :: c :: d :: e :: rest => do
      let a ← base64Value offset a
      let b ← base64Value (offset + 1) b
      let c ← base64Value (offset + 2) c
      let d ← base64Value (offset + 3) d
      let more ← decodeGroups (offset + 4) (e :: rest)
      pure (UInt8.ofNat (a * 4 + b / 16) :: UInt8.ofNat (b % 16 * 16 + c / 4) ::
        UInt8.ofNat (c % 4 * 64 + d) :: more)
  | bytes => decodeLastGroup offset bytes

/-- A byte that is no symbol at the very end, when it stands alone in its group; such a byte is
reported before any other. -/
def strayLastByte? (bytes : List UInt8) : Option UInt8 :=
  if bytes.length % 4 = 1 then
    bytes.getLast?.filter fun b => b ≠ fillByte && (base64Value? b).isNone
  else none

/-- The bytes that a text stands for. -/
def ofBase64 (s : String) : Except Base64Fault (List UInt8) :=
  let bytes := utf8 s
  match strayLastByte? bytes with
  | some b => .error (.invalidSymbol (bytes.length - 1) b)
  | none => decodeGroups 0 bytes

end ShardedSql.Text
