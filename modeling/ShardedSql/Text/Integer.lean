/-
**Decimal integers of 64 bits, read from text.**

A numeral is an optional sign and at least one of the digits `0` to `9`; a minus sign counts only
for a signed integer.  Digits are taken from the left, and the first one that cannot be used
decides what is wrong with the text: it is not a digit, or the number read so far leaves the range.

Main definitions:

* `ShardedSql.Text.NumeralFault` — why a text is not such a numeral, with the text for each cause;
* `ShardedSql.Text.readDigits` — digits under a limit;
* `ShardedSql.Text.readInt64`, `ShardedSql.Text.readUInt64` — signed and unsigned integers.

Main results:

* `ShardedSql.Text.readDigits_le` — **a number that is read is within the limit**.
-/

set_option relaxedAutoImplicit false
set_option autoImplicit false

namespace ShardedSql.Text

/-- Why a text is not a numeral of the wanted type. -/
inductive NumeralFault where
  | empty
  | invalidDigit
  | tooLarge
  | tooSmall
  deriving DecidableEq, Repr

/-- The words for what is wrong with a numeral. -/
def NumeralFault.text : NumeralFault → String
  | .empty => "cannot parse integer from empty string"
  | .invalidDigit => "invalid digit found in string"
  | .tooLarge => "number too large to fit in target type"
  | .tooSmall => "number too small to fit in target type"

/-- Whether the character is one of the digits `0` to `9`. -/
def isDigit (c : Char) : Bool := '0' ≤ c && c ≤ '9'

/-- The value of a digit. -/
def digitValue (c : Char) : Nat := c.toNat - 48

/-- The number that `acc` becomes when the digits of `cs` are written after it, as long as it
stays within the limit; `excess` is the fault of leaving it. -/
def readDigits (limit : Nat) (excess : NumeralFault) (acc : Nat) :
    List Char → Except NumeralFault Nat
  | [] => .ok acc
  | c :: rest =>
      if isDigit c then
        let next := acc * 10 + digitValue c
        if next ≤ limit then readDigits limit excess next rest else .error excess
      else .error .invalidDigit

theorem readDigits_le (limit : Nat) (excess : NumeralFault) (acc : Nat) (cs : List Char) (n : Nat)
    (hacc : acc ≤ limit) (h : readDigits limit excess acc cs = .ok n) : n ≤ limit := by
  induction cs generalizing acc with
  | nil =>
      simp only [readDigits, Except.ok.injEq] at h
      omega
  | cons c rest ih =>
      simp only [readDigits] at h
      split at h
      · split at h
        · rename_i hle
          exact ih _ hle h
        · cases h
      · cases h

/-- The largest signed integer of 64 bits. -/
def maxInt64 : Nat := 9223372036854775807

/-- The largest unsigned integer of 64 bits. -/
def maxUInt64 : Nat := 18446744073709551615

/-- Reads the characters of an unsigned numeral, of which there has to be at least one. -/
def readMagnitude (limit : Nat) (excess : NumeralFault) : List Char → Except NumeralFault Nat
  | [] => .error .invalidDigit
  | cs => readDigits limit excess 0 cs

/-- Reads a signed integer of 64 bits. -/
def readInt64 (s : String) : Except NumeralFault Int64 :=
  match s.toList with
  | [] => .error .empty
  | '-' :: rest => (readMagnitude (maxInt64 + 1) .tooSmall rest).map fun n => Int64.ofInt (-n)
  | '+' :: rest => (readMagnitude maxInt64 .tooLarge rest).map fun n => Int64.ofInt n
  | cs => (readMagnitude maxInt64 .tooLarge cs).map fun n => Int64.ofInt n

/-- Reads an unsigned integer of 64 bits. -/
def readUInt64 (s : String) : Except NumeralFault UInt64 :=
  match s.toList with
  | [] => .error .empty
  | '+' :: rest => (readMagnitude maxUInt64 .tooLarge rest).map UInt64.ofNat
  | cs => (readMagnitude maxUInt64 .tooLarge cs).map UInt64.ofNat

/-- A signed integer of 64 bits, when the text is one. -/
def readInt64? (s : String) : Option Int64 := (readInt64 s).toOption

end ShardedSql.Text
