/-
**The shortest decimal text of a number in floating point.**

The text has the fewest digits that read back as the same number, and of the numbers with so many
digits it is the one nearest to the value, a tie going away from zero.  The digits are always
written in positional notation: no exponent, no fraction when there is none.

Main definitions:

* `ShardedSql.Decimal.Interval` — the reals that round to a given number;
* `ShardedSql.Decimal.Interval.shortest` — the digits and the place of the last one;
* `ShardedSql.Decimal.positional` — positional notation;
* `ShardedSql.Decimal.Binary64.text` — the text of a number, with `NaN`, `inf` and `-0`.
-/

import ShardedSql.Decimal.Binary64

set_option relaxedAutoImplicit false
set_option autoImplicit false

namespace ShardedSql.Decimal

/-- A positive value with the reals around it that round to it, all over one denominator. -/
structure Interval where
  /-- The lower end. -/
  low : Nat
  /-- The value itself. -/
  value : Nat
  /-- The upper end. -/
  high : Nat
  /-- The common denominator. -/
  den : Nat
  /-- Whether the ends belong to the interval. -/
  closed : Bool

/-- The reals that round to a finite number other than zero, by its magnitude.  The gap below a
power of two is half as wide as the gap above it. -/
def Binary64.interval (x : Binary64) : Interval :=
  let m := x.significand
  let below := if x.fractionField = 0 ∧ x.exponentField > 1 then 1 else 2
  let q := x.scale - 2
  let up := if 0 ≤ q then 1 <<< q.toNat else 1
  { low := (4 * m - below) * up
    value := 4 * m * up
    high := (4 * m + 2) * up
    den := if 0 ≤ q then 1 else 1 <<< (-q).toNat
    closed := m % 2 = 0 }

/-- How many decimal digits a number has, with none for zero. -/
def digitCount (n : Nat) : Nat := if n = 0 then 0 else (Nat.toDigits 10 n).length

/-- The `k` with `10 ^ (k - 1) ≤ num / den < 10 ^ k`. -/
def decimalPlace (num den : Nat) : Int :=
  if den ≤ num then digitCount (num / den) else 1 - (digitCount ((den + num - 1) / num - 1) : Int)

/-- The ratio `num / den` in units of `10 ^ e`, as a numerator and a denominator. -/
def inUnits (num den : Nat) (e : Int) : Nat × Nat :=
  if 0 ≤ e then (num, den * Nat.pow 10 e.toNat) else (num * Nat.pow 10 (-e).toNat, den)

/-- Whether `c * 10 ^ e` is in the interval. -/
def Interval.holds (i : Interval) (c : Nat) (e : Int) : Bool :=
  let point : Nat × Nat :=
    if 0 ≤ e then (c * Nat.pow 10 e.toNat * i.den, 1) else (c * i.den, Nat.pow 10 (-e).toNat)
  let low := i.low * point.2
  let high := i.high * point.2
  if i.closed then low ≤ point.1 && point.1 ≤ high else low < point.1 && point.1 < high

/-- The multiple of `10 ^ e` in the interval that is nearest to the value, if there is one: only
the two neighbours of the value can be it. -/
def Interval.nearest? (i : Interval) (e : Int) : Option Nat :=
  let scaled := inUnits i.value i.den e
  let c := scaled.1 / scaled.2
  let twice := 2 * (scaled.1 % scaled.2)
  match i.holds c e && 0 < c, i.holds (c + 1) e with
  | true, true => some (if twice < scaled.2 then c else c + 1)
  | true, false => some c
  | false, true => some (c + 1)
  | false, false => none

/-- The fewest digits that fall into the interval, and the exponent of their unit.  Seventeen
digits always do. -/
def Interval.shortest (i : Interval) : Nat × Int :=
  let k := decimalPlace i.value i.den
  let found := (List.range 17).findSome? fun n =>
    let e := k - (n + 1 : Nat)
    (i.nearest? e).map fun c => (c, e)
  match found with
  | some (c, e) => if c % 10 = 0 then (c / 10, e + 1) else (c, e)
  | none => (0, 0)

/-- The number `c * 10 ^ e` in positional notation. -/
def positional (c : Nat) (e : Int) : String :=
  let digits := Nat.toDigits 10 c
  if 0 ≤ e then String.ofList (digits ++ List.replicate e.toNat '0')
  else
    let places := (-e).toNat
    if places < digits.length then
      let whole := digits.length - places
      String.ofList (digits.take whole ++ '.' :: digits.drop whole)
    else
      String.ofList ('0' :: '.' :: List.replicate (places - digits.length) '0' ++ digits)

/-- The text of a number. -/
def Binary64.text (x : Binary64) : String :=
  if x.isNaN then "NaN"
  else
    let sign := if x.isNegative then "-" else ""
    if !x.isFinite then sign ++ "inf"
    else if x.significand = 0 then sign ++ "0"
    else
      let (c, e) := x.interval.shortest
      sign ++ positional c e

end ShardedSql.Decimal
