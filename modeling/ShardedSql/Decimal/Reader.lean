/-
**Numbers in floating point, read from decimal text.**

A text is an optional sign and then `inf`, `infinity` or `nan` in any case, or digits with at most
one point among them and an optional exponent.  There is at least one digit beside the point.  The
answer is the number nearest to the decimal value, whatever the number of digits.

Main definitions:

* `ShardedSql.Decimal.Numeral` — a decimal numeral: its digits, and the exponent of the last one;
* `ShardedSql.Decimal.Numeral.nearest` — the number nearest to a numeral;
* `ShardedSql.Decimal.readBinary64?` — reading a text.
-/

import ShardedSql.Decimal.Binary64
import ShardedSql.Text.Ascii
import ShardedSql.Text.Integer

set_option relaxedAutoImplicit false
set_option autoImplicit false

namespace ShardedSql.Decimal

/-- The value `digits * 10 ^ exponent`. -/
structure Numeral where
  /-- The digits read as one whole number. -/
  digits : Nat
  /-- The power of ten they are a multiple of. -/
  exponent : Int

/-- The number nearest to a numeral.  Beyond the places where every value is infinite or zero the
power of ten need not be computed. -/
def Numeral.nearest (negative : Bool) (n : Numeral) : Binary64 :=
  if n.digits = 0 then .ofMagnitude negative 0
  else
    let place : Int := (Nat.toDigits 10 n.digits).length + n.exponent
    if place > 310 then .infinity negative
    else if place < -325 then .ofMagnitude negative 0
    else if 0 ≤ n.exponent then
      .ofRatio negative (n.digits * Nat.pow 10 n.exponent.toNat) 1
    else .ofRatio negative n.digits (Nat.pow 10 (-n.exponent).toNat)

/-- The value of a list of digits. -/
def digitsValue (cs : List Char) : Nat := cs.foldl (fun n c => n * 10 + Text.digitValue c) 0

/-- Reads the exponent that may follow the digits of a numeral. -/
def readExponent? : List Char → Option Int
  | [] => some 0
  | c :: rest =>
      if c = 'e' ∨ c = 'E' then
        let negative := rest.head? = some '-'
        let digits := if negative ∨ rest.head? = some '+' then rest.tail else rest
        if digits.isEmpty || !digits.all Text.isDigit then none
        else
          let n : Int := digitsValue digits
          some (if negative then -n else n)
      else none

/-- Reads a numeral without a sign. -/
def readNumeral? (cs : List Char) : Option Numeral :=
  let whole := cs.takeWhile Text.isDigit
  let rest := cs.dropWhile Text.isDigit
  let (fraction, rest) :=
    match rest with
    | '.' :: rest => (rest.takeWhile Text.isDigit, rest.dropWhile Text.isDigit)
    | rest => ([], rest)
  if whole.isEmpty && fraction.isEmpty then none
  else
    (readExponent? rest).map fun e =>
      ⟨digitsValue (whole ++ fraction), e - (fraction.length : Int)⟩

/-- Reads a number without its sign. -/
def readUnsigned? (negative : Bool) (cs : List Char) : Option Binary64 :=
  let word := String.ofList (cs.map Char.toLower)
  if word = "inf" ∨ word = "infinity" then some (.infinity negative)
  else if word = "nan" then some (.nan negative)
  else (readNumeral? cs).map fun n => n.nearest negative

/-- Reads a number. -/
def readBinary64? (s : String) : Option Binary64 :=
  match s.toList with
  | '-' :: rest => readUnsigned? true rest
  | '+' :: rest => readUnsigned? false rest
  | cs => readUnsigned? false cs

end ShardedSql.Decimal
