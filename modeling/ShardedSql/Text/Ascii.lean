/-
**Names compared without regard to the case of ASCII letters.**

Column names, aliases, data sources and most other names of a statement compare this way: the
letters `A` to `Z` are read as `a` to `z` and every other character stands for itself.

Main definitions:

* `ShardedSql.Text.foldCase`, `ShardedSql.Text.raiseCase` — a text with its ASCII letters lowered
  or raised;
* `ShardedSql.Text.SameName` — two texts are the same name.

Main results:

* `ShardedSql.Text.sameName_refl`, `ShardedSql.Text.sameName_comm`,
  `ShardedSql.Text.sameName_trans` — **it is an equivalence**.
-/

set_option relaxedAutoImplicit false
set_option autoImplicit false

namespace ShardedSql.Text

/-- The text with the letters `A` to `Z` lowered. -/
def foldCase (s : String) : String := String.ofList (s.toList.map Char.toLower)

/-- The text with the letters `a` to `z` raised. -/
def raiseCase (s : String) : String := String.ofList (s.toList.map Char.toUpper)

/-- Whether two texts are the same name: they differ at most in the case of ASCII letters. -/
def sameName (a b : String) : Bool := a.toList.map Char.toLower == b.toList.map Char.toLower

/-- Two texts are the same name. -/
def SameName (a b : String) : Prop := sameName a b = true

instance (a b : String) : Decidable (SameName a b) := inferInstanceAs (Decidable (_ = true))

theorem sameName_iff (a b : String) :
    sameName a b = true ↔ a.toList.map Char.toLower = b.toList.map Char.toLower := by
  simp [sameName]

@[simp] theorem sameName_refl (a : String) : sameName a a = true := by simp [sameName]

theorem sameName_comm (a b : String) : sameName a b = sameName b a := by
  simp only [sameName, Bool.beq_comm]

theorem sameName_trans {a b c : String} (hab : sameName a b = true) (hbc : sameName b c = true) :
    sameName a c = true := by
  rw [sameName_iff] at *
  exact hab.trans hbc

/-- Whether a name is among others. -/
def memName (a : String) (names : List String) : Bool := names.any fun b => sameName a b

end ShardedSql.Text
