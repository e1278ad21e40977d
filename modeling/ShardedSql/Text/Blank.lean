/-
**White space, and texts without it at their ends.**

The characters are those that Unicode gives the property `White_Space`.

Main definitions:

* `ShardedSql.Text.isBlank` — the character is white space;
* `ShardedSql.Text.trimChars`, `ShardedSql.Text.trim` — white space taken off both ends.

Main results:

* `ShardedSql.Text.isBlank_of_isWhitespace` — every character that the standard library calls
  white space is one;
* `ShardedSql.Text.head?_dropWhile_isBlank` — **what is left begins with something else**.
-/

set_option relaxedAutoImplicit false
set_option autoImplicit false

namespace ShardedSql.Text

/-- The character is white space. -/
def isBlank (c : Char) : Bool :=
  let n := c.toNat
  (9 ≤ n && n ≤ 13) || n == 0x20 || n == 0x85 || n == 0xA0 || n == 0x1680 ||
    (0x2000 ≤ n && n ≤ 0x200A) || n == 0x2028 || n == 0x2029 || n == 0x202F || n == 0x205F ||
    n == 0x3000

/-- White space taken off both ends of a list of characters. -/
def trimChars (cs : List Char) : List Char :=
  ((cs.dropWhile isBlank).reverse.dropWhile isBlank).reverse

/-- White space taken off both ends. -/
def trim (s : String) : String := String.ofList (trimChars s.toList)

theorem isBlank_of_isWhitespace {c : Char} (h : c.isWhitespace = true) : isBlank c = true := by
  simp only [Char.isWhitespace, Bool.or_eq_true, decide_eq_true_eq] at h
  rcases h with ((rfl | rfl) | rfl) | rfl <;> decide

theorem head?_dropWhile_isBlank (cs : List Char) (c : Char)
    (h : (cs.dropWhile isBlank).head? = some c) : isBlank c = false := by
  induction cs with
  | nil => simp at h
  | cons d rest ih =>
      rw [List.dropWhile_cons] at h
      split at h
      · exact ih h
      · rename_i hd
        simp only [List.head?_cons, Option.some.injEq] at h
        subst h
        simpa using hd

end ShardedSql.Text
