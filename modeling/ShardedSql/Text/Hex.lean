/-
**Bytes as pairs of hexadecimal digits.**

Main definitions:

* `ShardedSql.Text.hexLower`, `ShardedSql.Text.hexUpper` — two digits for each byte, with small or
  with capital letters.

Main results:

* `ShardedSql.Text.hexChars_length` — a byte has exactly two digits.
-/

set_option relaxedAutoImplicit false
set_option autoImplicit false

namespace ShardedSql.Text

/-- The digit of a number below sixteen, with the letters counted from `a`. -/
def hexDigit (a : Char) (n : Nat) : Char :=
  if n < 10 then Char.ofNat (48 + n) else Char.ofNat (a.toNat + (n - 10))

/-- The two digits of each byte, with the letters counted from `a`. -/
def hexChars (a : Char) : List UInt8 → List Char
  | [] => []
  | b :: rest => hexDigit a (b.toNat / 16) :: hexDigit a (b.toNat % 16) :: hexChars a rest

@[simp] theorem hexChars_length (a : Char) (bytes : List UInt8) :
    (hexChars a bytes).length = 2 * bytes.length := by
  induction bytes with
  | nil => rfl
  | cons b rest ih => simp only [hexChars, List.length_cons, ih]; omega

/-- Hexadecimal digits with small letters. -/
def hexLower (bytes : List UInt8) : String := String.ofList (hexChars 'a' bytes)

/-- Hexadecimal digits with capital letters. -/
def hexUpper (bytes : List UInt8) : String := String.ofList (hexChars 'A' bytes)

end ShardedSql.Text
