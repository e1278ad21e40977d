/-
**Documents read from JSON text.**

A number without point and exponent is an integer when it fits 64 bits.  Any other number is built
from the leading digits that fit a word of 64 bits and a power of ten, by one multiplication or
division in floating point, so its last bit may differ from that of the nearest number.  Nesting is
limited to 127 levels.

Main definitions:

* `ShardedSql.Document.readString?` — the characters of a string after its opening quote;
* `ShardedSql.Document.readNumber?` — a number;
* `ShardedSql.Document.readValue?` — any document;
* `ShardedSql.Document.parse?` — a text that is one document and nothing else.
-/

import ShardedSql.Document
import ShardedSql.Text.Integer

set_option relaxedAutoImplicit false
set_option autoImplicit false

namespace ShardedSql.Document

open Decimal (Binary64)

/-! ### Strings -/

/-- The value of a hexadecimal digit. -/
def hexValue? (c : Char) : Option Nat :=
  if '0' ≤ c ∧ c ≤ '9' then some (c.toNat - 48)
  else if 'a' ≤ c ∧ c ≤ 'f' then some (c.toNat - 87)
  else if 'A' ≤ c ∧ c ≤ 'F' then some (c.toNat - 55)
  else none

/-- The value of four hexadecimal digits. -/
def hexUnit? (a b c d : Char) : Option Nat := do
  let a ← hexValue? a
  let b ← hexValue? b
  let c ← hexValue? c
  let d ← hexValue? d
  some (((a * 16 + b) * 16 + c) * 16 + d)

/-- The character that a letter after a backslash stands for. -/
def escaped? : Char → Option Char
  | '"' => some '"'
  | '\\' => some '\\'
  | '/' => some '/'
  | 'b' => some '\x08'
  | 'f' => some '\x0c'
  | 'n' => some '\n'
  | 'r' => some '\r'
  | 't' => some '\t'
  | _ => none

/-- The characters of a string up to its closing quote, and what follows it. -/
def readString? : List Char → Option (List Char × List Char)
  | [] => none
  | '"' :: rest => some ([], rest)
  | '\\' :: 'u' :: a :: b :: c :: d :: rest =>
      match hexUnit? a b c d with
      | none => none
      | some unit =>
          if 0xD800 ≤ unit ∧ unit < 0xDC00 then
            match rest with
            | '\\' :: 'u' :: e :: f :: g :: h :: rest =>
                match hexUnit? e f g h with
                | none => none
                | some low =>
                    if 0xDC00 ≤ low ∧ low < 0xE000 then
                      (readString? rest).map fun p =>
                        (Char.ofNat (0x10000 + (unit - 0xD800) * 0x400 + (low - 0xDC00)) :: p.1,
                          p.2)
                    else none
            | _ => none
          else if 0xDC00 ≤ unit ∧ unit < 0xE000 then none
          else (readString? rest).map fun p => (Char.ofNat unit :: p.1, p.2)
  | '\\' :: c :: rest =>
      match escaped? c with
      | none => none
      | some e => (readString? rest).map fun p => (e :: p.1, p.2)
  | c :: rest =>
      if c = '\\' ∨ c.toNat < 0x20 then none
      else (readString? rest).map fun p => (c :: p.1, p.2)

/-! ### Numbers -/

/-- A significand with the number of digits that were read into it or passed over. -/
structure Digits where
  /-- The number that the digits taken make. -/
  significand : Nat
  /-- How many digits were taken. -/
  taken : Nat
  /-- How many digits came after the first that did not fit. -/
  dropped : Nat

/-- Reads digits after `significand` for as long as the number fits a word of 64 bits. -/
def takeDigits (significand : Nat) : List Char → Digits
  | [] => ⟨significand, 0, 0⟩
  | c :: rest =>
      let next := significand * 10 + Text.digitValue c
      if next ≤ Text.maxUInt64 then
        let more := takeDigits next rest
        { more with taken := more.taken + 1 }
      else ⟨significand, 0, rest.length + 1⟩

/-- Multiplies in floating point. -/
def multiply (x y : Binary64) : Binary64 := Binary64.combine (· * ·) x y

/-- The number `x * 10 ^ e`, scaled by at most 308 places at a time; `none` when it is too large.
`fuel` bounds the number of divisions. -/
def scaleByTen? : Nat → Binary64 → Int → Option Binary64
  | 0, x, _ => some x
  | fuel + 1, x, e =>
      if e.natAbs ≤ 308 then
        let power := Binary64.ofRatio false (Nat.pow 10 e.natAbs) 1
        if 0 ≤ e then
          let r := multiply x power
          if r.isFinite then some r else none
        else some (x.div power)
      else if x.magnitude = 0 then some x
      else if 0 ≤ e then none
      else scaleByTen? fuel (x.div (.ofRatio false (Nat.pow 10 308) 1)) (e + 308)

/-- The number `significand * 10 ^ e` under a sign. -/
def realOf? (negative : Bool) (significand : Nat) (e : Int) : Option Document :=
  (scaleByTen? 8 (.ofInt significand) e).map fun x =>
    .real (if negative then .ofMagnitude true x.magnitude else x)

/-- An exponent after its mark, the number it is added to being `e`, and what follows. -/
def readExponent? (negative : Bool) (significand : Nat) (e : Int) (cs : List Char) :
    Option (Document × List Char) :=
  let (down, cs) :=
    match cs with
    | '-' :: rest => (true, rest)
    | '+' :: rest => (false, rest)
    | cs => (false, cs)
  let digits := cs.takeWhile Text.isDigit
  let rest := cs.dropWhile Text.isDigit
  if digits.isEmpty then none
  else
    let n : Int := digits.foldl (fun n c => n * 10 + Text.digitValue c) (0 : Nat)
    if n < 2147483648 then
      (realOf? negative significand (if down then e - n else e + n)).map fun d => (d, rest)
    else if significand ≠ 0 ∧ !down then none
    else some (.real (.ofMagnitude negative 0), rest)

/-- The fraction, exponent or end after the whole digits of a number. -/
def readTail? (negative : Bool) (whole : Digits) (cs : List Char) :
    Option (Document × List Char) :=
  match cs with
  | '.' :: cs =>
      let digits := cs.takeWhile Text.isDigit
      let rest := cs.dropWhile Text.isDigit
      if digits.isEmpty then none
      else
        let fraction := takeDigits whole.significand digits
        let e : Int := (whole.dropped : Int) - fraction.taken
        match rest with
        | c :: after =>
            if c = 'e' ∨ c = 'E' then readExponent? negative fraction.significand e after
            else (realOf? negative fraction.significand e).map fun d => (d, rest)
        | [] => (realOf? negative fraction.significand e).map fun d => (d, rest)
  | c :: after =>
      if c = 'e' ∨ c = 'E' then readExponent? negative whole.significand whole.dropped after
      else finish
  | [] => finish
where
  /-- The number ends where `cs` begins. -/
  finish : Option (Document × List Char) :=
    if whole.dropped ≠ 0 then
      (realOf? negative whole.significand whole.dropped).map fun d => (d, cs)
    else if !negative then some (.integer whole.significand, cs)
    else if whole.significand = 0 ∨ whole.significand > Text.maxInt64 + 1 then
      some (.real (.ofMagnitude true (Binary64.ofInt whole.significand).magnitude), cs)
    else some (.integer (-(whole.significand : Int)), cs)

/-- A number without its sign. -/
def readUnsigned? (negative : Bool) (cs : List Char) : Option (Document × List Char) :=
  let digits := cs.takeWhile Text.isDigit
  let rest := cs.dropWhile Text.isDigit
  match digits with
  | [] => none
  | '0' :: _ :: _ => none
  | _ => readTail? negative (takeDigits 0 digits) rest

/-- A number, and what follows it. -/
def readNumber? : List Char → Option (Document × List Char)
  | '-' :: rest => readUnsigned? true rest
  | cs => readUnsigned? false cs

/-! ### Documents -/

/-- The text without the white space at its beginning. -/
def skipSpace (cs : List Char) : List Char :=
  cs.dropWhile fun c => c = ' ' || c = '\n' || c = '\t' || c = '\r'

/-- What follows a word that the text begins with. -/
def afterWord? (word : List Char) (cs : List Char) : Option (List Char) :=
  if word.isPrefixOf cs then some (cs.drop word.length) else none

mutual

/-- A document, and what follows it.  `fuel` exceeds the number of characters, and `depth` is the
number of levels that may still be opened. -/
def readValue? : Nat → Nat → List Char → Option (Document × List Char)
  | 0, _, _ => none
  | fuel + 1, depth, cs =>
      match skipSpace cs with
      | [] => none
      | '"' :: rest => (readString? rest).map fun p => (.text (String.ofList p.1), p.2)
      | '[' :: rest =>
          if depth = 0 then none
          else
            match skipSpace rest with
            | ']' :: rest => some (.list [], rest)
            | rest => (readItems? fuel (depth - 1) rest).map fun p => (.list p.1, p.2)
      | '\x7b' :: rest =>
          if depth = 0 then none
          else
            match skipSpace rest with
            | '\x7d' :: rest => some (.record [], rest)
            | rest => (readFields? fuel (depth - 1) rest).map fun p => (.record p.1, p.2)
      | 'n' :: rest => (afterWord? ['u', 'l', 'l'] rest).map fun r => (.null, r)
      | 't' :: rest => (afterWord? ['r', 'u', 'e'] rest).map fun r => (.bool true, r)
      | 'f' :: rest => (afterWord? ['a', 'l', 's', 'e'] rest).map fun r => (.bool false, r)
      | cs => readNumber? cs

/-- The items of a list up to its end. -/
def readItems? : Nat → Nat → List Char → Option (List Document × List Char)
  | 0, _, _ => none
  | fuel + 1, depth, cs =>
      match readValue? fuel depth cs with
      | none => none
      | some (d, rest) =>
          match skipSpace rest with
          | ',' :: rest => (readItems? fuel depth rest).map fun p => (d :: p.1, p.2)
          | ']' :: rest => some ([d], rest)
          | _ => none

/-- The fields of a record up to its end. -/
def readFields? : Nat → Nat → List Char → Option (List (String × Document) × List Char)
  | 0, _, _ => none
  | fuel + 1, depth, cs =>
      match skipSpace cs with
      | '"' :: rest =>
          match readString? rest with
          | none => none
          | some (name, rest) =>
              match skipSpace rest with
              | ':' :: rest =>
                  match readValue? fuel depth rest with
                  | none => none
                  | some (d, rest) =>
                      match skipSpace rest with
                      | ',' :: rest =>
                          (readFields? fuel depth rest).map fun p =>
                            ((String.ofList name, d) :: p.1, p.2)
                      | '\x7d' :: rest => some ([(String.ofList name, d)], rest)
                      | _ => none
              | _ => none
      | _ => none

end

/-- The levels of lists and records that may be open at once. -/
def maxDepth : Nat := 127

/-- The document that a text is. -/
def parse? (s : String) : Option Document :=
  let cs := s.toList
  match readValue? (2 * cs.length + 2) maxDepth cs with
  | some (d, rest) => if (skipSpace rest).isEmpty then some d else none
  | none => none

end ShardedSql.Document
