/-
**Numbers of 64 bits in binary floating point.**

A number is its 64 bits, so that two of them are equal exactly when they are stored alike: the two
zeros differ, and a number that is not a number equals itself.  The order is the total order of the
stored form, in which negative not-a-numbers come first and positive ones last.

Main definitions:

* `ShardedSql.Decimal.Binary64` — the numbers, with `significand` and `scale` for the finite ones:
  the value is `significand * 2 ^ scale`, negated when `isNegative`;
* `ShardedSql.Decimal.Binary64.ofRatio` — the number nearest to a quotient, a tie going to the even
  significand;
* `ShardedSql.Decimal.Binary64.orderKey` — the integer by which numbers are ordered;
* `ShardedSql.Decimal.Binary64.toInt64` — the integer part, held within 64 bits.

Main results:

* `ShardedSql.Decimal.Binary64.orderKey_injective` — **numbers that are equal in the order are
  equal**.
-/

import ShardedSql.Signed

set_option relaxedAutoImplicit false
set_option autoImplicit false

namespace ShardedSql.Decimal

/-- A number in binary floating point, by its bits. -/
structure Binary64 where
  /-- The sign, eleven bits of exponent and 52 of fraction. -/
  bits : UInt64
  deriving DecidableEq, Repr, Inhabited

namespace Binary64

/-! ### Parts -/

/-- The value of the sign bit. -/
def signBit : Nat := 0x8000000000000000

/-- The value of the lowest bit of the exponent, which is the number of fractions. -/
def exponentBit : Nat := 0x10000000000000

/-- The sign bit is set. -/
def isNegative (x : Binary64) : Bool := x.bits.toNat ≥ signBit

/-- All bits but the sign. -/
def magnitude (x : Binary64) : Nat := x.bits.toNat % signBit

/-- The eleven bits of the exponent. -/
def exponentField (x : Binary64) : Nat := x.magnitude / exponentBit

/-- The 52 bits of the fraction. -/
def fractionField (x : Binary64) : Nat := x.magnitude % exponentBit

/-- The number is neither infinite nor a not-a-number. -/
def isFinite (x : Binary64) : Bool := x.exponentField < 2047

/-- The bits stand for no number. -/
def isNaN (x : Binary64) : Bool := x.exponentField == 2047 && x.fractionField != 0

/-- The whole number that a finite number is a power of two times. -/
def significand (x : Binary64) : Nat :=
  if x.exponentField = 0 then x.fractionField else exponentBit + x.fractionField

/-- The exponent of the power of two that goes with `significand`. -/
def scale (x : Binary64) : Int :=
  if x.exponentField = 0 then -1074 else (x.exponentField : Int) - 1075

/-- The number with these bits under a given sign. -/
def ofMagnitude (negative : Bool) (magnitude : Nat) : Binary64 :=
  ⟨UInt64.ofNat ((if negative then signBit else 0) + magnitude)⟩

/-- Infinity under a given sign. -/
def infinity (negative : Bool) : Binary64 := ofMagnitude negative (2047 * exponentBit)

/-- The plain not-a-number under a given sign. -/
def nan (negative : Bool) : Binary64 := ofMagnitude negative (2047 * exponentBit + exponentBit / 2)

/-- A not-a-number with the bit set that marks it as quiet. -/
def quiet (x : Binary64) : Binary64 := ⟨x.bits ||| 0x8000000000000⟩

/-! ### Order -/

/-- The integer by which numbers are ordered: the magnitude, counted downwards from -1 under a
negative sign. -/
def orderKey (x : Binary64) : Int :=
  if x.isNegative then -(x.magnitude : Int) - 1 else x.magnitude

/-- The total order of the stored form. -/
def order (x y : Binary64) : Ordering := compare x.orderKey y.orderKey

theorem bits_eq_of_orderKey_eq {x y : Binary64} (h : x.orderKey = y.orderKey) :
    x.bits.toNat = y.bits.toNat := by
  have hx := x.bits.toNat_lt
  have hy := y.bits.toNat_lt
  simp only [orderKey, isNegative, magnitude, signBit, ge_iff_le, decide_eq_true_eq] at h
  split at h <;> split at h <;> omega

theorem orderKey_injective {x y : Binary64} (h : x.orderKey = y.orderKey) : x = y := by
  cases x
  cases y
  exact congrArg Binary64.mk (UInt64.toNat_inj.1 (bits_eq_of_orderKey_eq h))

/-! ### Rounding -/

/-- The whole number nearest to `num / den`, a tie going to the even one. -/
def roundEven (num den : Nat) : Nat :=
  let q := num / den
  let twice := 2 * (num % den)
  if twice > den || (twice == den && q % 2 == 1) then q + 1 else q

/-- The number nearest to `num / den` under a given sign. -/
def ofRatio (negative : Bool) (num den : Nat) : Binary64 :=
  if num = 0 then ofMagnitude negative 0
  else
    let guess : Int := max ((num.log2 : Int) - (den.log2 : Int) - 53) (-1074)
    let scaled (q : Int) : Nat × Nat :=
      if 0 ≤ q then (num, den <<< q.toNat) else (num <<< (-q).toNat, den)
    let first := scaled guess
    let q := if first.1 / first.2 ≥ 2 * exponentBit then guess + 1 else guess
    let parts := scaled q
    let m := roundEven parts.1 parts.2
    let magnitude := (q + 1074).toNat * exponentBit + m
    if magnitude ≥ 2047 * exponentBit then infinity negative else ofMagnitude negative magnitude

/-- The number nearest to an integer. -/
def ofInt (n : Int) : Binary64 := ofRatio (n < 0) n.natAbs 1

/-! ### Integers -/

/-- The value without its fraction and sign, of a finite number. -/
def wholePart (x : Binary64) : Nat :=
  if 0 ≤ x.scale then x.significand <<< x.scale.toNat
  else x.significand >>> (-x.scale).toNat

/-- The number is finite and has no fraction. -/
def isWhole (x : Binary64) : Bool :=
  x.isFinite && (0 ≤ x.scale || x.significand % (1 <<< (-x.scale).toNat) == 0)

/-- The integer part, held within 64 bits; a not-a-number gives zero. -/
def toInt64 (x : Binary64) : Int64 :=
  if x.isNaN then 0
  else
    let whole : Nat := if x.isFinite then x.wholePart else signBit
    Int64.ofInt (Signed.held (if x.isNegative then -(whole : Int) else whole))

/-! ### Arithmetic -/

/-- Applies an operation; a not-a-number among the operands is the answer, the left one first, and
an operation without a value answers with the negative not-a-number. -/
def combine (op : Float → Float → Float) (x y : Binary64) : Binary64 :=
  if x.isNaN then x.quiet
  else if y.isNaN then y.quiet
  else
    let r : Binary64 := ⟨(op (Float.ofBits x.bits) (Float.ofBits y.bits)).toBits⟩
    if r.isNaN then nan true else r

/-- The sum. -/
def add (x y : Binary64) : Binary64 := combine (· + ·) x y

/-- The quotient. -/
def div (x y : Binary64) : Binary64 := combine (· / ·) x y

end Binary64

end ShardedSql.Decimal
