/-
**Texts as bytes in UTF-8, and back.**

Reading stops at the first sequence that is not the code of a character.  Such a sequence is either
cut off by the end of the bytes, or it is invalid, and then its length is that of the longest
beginning that a valid sequence could have.

Main definitions:

* `ShardedSql.Text.utf8` — the bytes of a text;
* `ShardedSql.Text.Utf8Fault` — why bytes are not a text, with its words;
* `ShardedSql.Text.ofUtf8` — reading bytes.
-/

set_option relaxedAutoImplicit false
set_option autoImplicit false

namespace ShardedSql.Text

/-- The bytes of a text. -/
def utf8 (s : String) : List UInt8 := s.toUTF8.toList

/-- Why bytes are not a text. -/
inductive Utf8Fault where
  /-- `length` bytes from `index` on begin no sequence. -/
  | invalid (length index : Nat)
  /-- The bytes end within the sequence that begins at `index`. -/
  | incomplete (index : Nat)
  deriving DecidableEq, Repr

/-- The words for what is wrong with the bytes. -/
def Utf8Fault.text : Utf8Fault → String
  | .invalid length index =>
      "invalid utf-8 sequence of " ++ toString length ++ " bytes from index " ++ toString index
  | .incomplete index => "incomplete utf-8 byte sequence from index " ++ toString index

/-- Whether a byte continues a sequence. -/
def isTail (b : UInt8) : Bool := 0x80 ≤ b && b ≤ 0xBF

/-- Whether `b` may be the second byte of a sequence of three that `lead` begins. -/
def isSecondOfThree (lead b : UInt8) : Bool :=
  if lead = 0xE0 then 0xA0 ≤ b && b ≤ 0xBF
  else if lead = 0xED then 0x80 ≤ b && b ≤ 0x9F
  else isTail b

/-- Whether `b` may be the second byte of a sequence of four that `lead` begins. -/
def isSecondOfFour (lead b : UInt8) : Bool :=
  if lead = 0xF0 then 0x90 ≤ b && b ≤ 0xBF
  else if lead = 0xF4 then 0x80 ≤ b && b ≤ 0x8F
  else isTail b

/-- The six bits that a byte adds to a code point. -/
def tailBits (b : UInt8) : Nat := b.toNat % 64

/-- Reads bytes that stand from `index` on. -/
def decodeUtf8 (index : Nat) : List UInt8 → Except Utf8Fault (List Char)
  | [] => .ok []
  | a :: rest =>
      if a < 0x80 then (decodeUtf8 (index + 1) rest).map (Char.ofNat a.toNat :: ·)
      else if 0xC2 ≤ a && a ≤ 0xDF then
        match rest with
        | [] => .error (.incomplete index)
        | b :: rest =>
            if isTail b then
              (decodeUtf8 (index + 2) rest).map
                (Char.ofNat (a.toNat % 32 * 64 + tailBits b) :: ·)
            else .error (.invalid 1 index)
      else if 0xE0 ≤ a && a ≤ 0xEF then
        match rest with
        | [] => .error (.incomplete index)
        | [b] =>
            .error (if isSecondOfThree a b then .incomplete index else .invalid 1 index)
        | b :: c :: rest =>
            if !isSecondOfThree a b then .error (.invalid 1 index)
            else if isTail c then
              (decodeUtf8 (index + 3) rest).map
                (Char.ofNat ((a.toNat % 16 * 64 + tailBits b) * 64 + tailBits c) :: ·)
            else .error (.invalid 2 index)
      else if 0xF0 ≤ a && a ≤ 0xF4 then
        match rest with
        | [] => .error (.incomplete index)
        | [b] => .error (if isSecondOfFour a b then .incomplete index else .invalid 1 index)
        | [b, c] =>
            .error
              (if !isSecondOfFour a b then .invalid 1 index
              else if isTail c then .incomplete index else .invalid 2 index)
        | b :: c :: d :: rest =>
            if !isSecondOfFour a b then .error (.invalid 1 index)
            else if !isTail c then .error (.invalid 2 index)
            else if isTail d then
              (decodeUtf8 (index + 4) rest).map
                (Char.ofNat
                  (((a.toNat % 8 * 64 + tailBits b) * 64 + tailBits c) * 64 + tailBits d) :: ·)
            else .error (.invalid 3 index)
      else .error (.invalid 1 index)

/-- The text that bytes are the code of. -/
def ofUtf8 (bytes : List UInt8) : Except Utf8Fault String :=
  (decodeUtf8 0 bytes).map String.ofList

@[simp] theorem decodeUtf8_nil (index : Nat) : decodeUtf8 index [] = .ok [] := by
  simp [decodeUtf8]

end ShardedSql.Text
