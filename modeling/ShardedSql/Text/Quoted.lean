/-
**Texts between double quotes.**

What stands between the quotes can be read: a quote or a backslash follows a backslash, the most
common controls have a letter of their own, and every other character that cannot be seen on its
own is written as its code point.

Main definitions:

* `ShardedSql.Text.quotedChar` — a character as it stands between the quotes;
* `ShardedSql.Text.quoted` — a text between quotes.

Main results:

* `ShardedSql.Text.quotedChar_of_isVisible` — **a visible character stands for itself**.
-/

import ShardedSql.Text.Visible

set_option relaxedAutoImplicit false
set_option autoImplicit false

namespace ShardedSql.Text

/-- The code point of a character in lower case hexadecimal digits, between braces. -/
def codePointEscape (c : Char) : List Char :=
  ['\\', 'u', '\x7b'] ++ Nat.toDigits 16 c.toNat ++ ['\x7d']

/-- A character as it stands between double quotes. -/
def quotedChar (c : Char) : List Char :=
  if c = '"' then ['\\', '"']
  else if c = '\\' then ['\\', '\\']
  else if c = '\n' then ['\\', 'n']
  else if c = '\r' then ['\\', 'r']
  else if c = '\t' then ['\\', 't']
  else if c.toNat = 0 then ['\\', '0']
  else if isVisible c then [c]
  else codePointEscape c

/-- A text between double quotes. -/
def quoted (s : String) : String :=
  String.ofList ('"' :: s.toList.flatMap quotedChar ++ ['"'])

theorem quotedChar_of_isVisible {c : Char} (h : isVisible c = true) (hq : c ≠ '"')
    (hb : c ≠ '\\') : quotedChar c = [c] := by
  have hn : c ≠ '\n' := by rintro rfl; exact absurd h (by decide +kernel)
  have hr : c ≠ '\r' := by rintro rfl; exact absurd h (by decide +kernel)
  have ht : c ≠ '\t' := by rintro rfl; exact absurd h (by decide +kernel)
  have hz : c.toNat ≠ 0 := by
    intro hz
    have := (isVisible_iff_of_ascii (c := c) (by omega)).mp h
    omega
  simp [quotedChar, hq, hb, hn, hr, ht, hz, h]

end ShardedSql.Text
