/-
**A literal is read back as the value that it was written for.**

Values are written into the text of statements: what was encrypted, and keys that were generated.
Whatever the value is, its literal has to end where it was meant to end, or else the rest of the
value is taken for a part of the statement.  A text may begin and end with quotes, and it may hold
what looks like SQL.  All quotes in it are written twice, so none of them stands alone, and the
first quote that no other follows is the one behind the text.

The reader here goes by the rules of SQL and not by the way in which values are written: keywords
are read in any case, and so are hexadecimal digits.

Main definitions:

* `ShardedSql.Value.readText?`, `ShardedSql.Value.readBytes?` — what stands in quotes;
* `ShardedSql.Value.readWord?` — a keyword or an integer;
* `ShardedSql.Value.readLiteral?` — **one literal at the front of a text, and what follows it**;
* `ShardedSql.Value.MayFollow` — what may stand behind a literal in a list of values.

Main results:

* `ShardedSql.Value.readText?_doubleQuotes` — a text ends at the quote behind it;
* `ShardedSql.Value.readLiteral?_literal` — **every value but a number in floating point is read
  back from its literal, whatever follows it, and no other value is written alike**.
-/

import ShardedSql.Document.Reader
import ShardedSql.Proofs.Text.Integer
import ShardedSql.Value

set_option relaxedAutoImplicit false
set_option autoImplicit false

namespace ShardedSql.Value

open Document (hexValue?)
open Text (hexDigit hexChars)

/-! ### Reading -/

/-- A text up to the quote that ends it, and what follows.  A quote that is written twice is one of
the text. -/
def readText? : List Char → Option (List Char × List Char)
  | [] => none
  | '\'' :: '\'' :: rest => (readText? rest).map fun r => ('\'' :: r.1, r.2)
  | '\'' :: rest => some ([], rest)
  | c :: rest => (readText? rest).map fun r => (c :: r.1, r.2)

/-- Bytes in pairs of hexadecimal digits up to the quote that ends them, and what follows. -/
def readBytes? : List Char → Option (List UInt8 × List Char)
  | '\'' :: rest => some ([], rest)
  | a :: b :: rest => do
      let high ← hexValue? a
      let low ← hexValue? b
      let r ← readBytes? rest
      some (UInt8.ofNat (16 * high + low) :: r.1, r.2)
  | _ => none

/-- What keywords and integers consist of. -/
def isWordChar (c : Char) : Bool := c.isAlphanum || c == '_'

/-- The value of a keyword or of an integer. -/
def ofWord? (word : String) : Option Value :=
  match Text.readInt64? word with
  | some n => some (.int n)
  | none =>
      if Text.sameName word "NULL" then some .null
      else if Text.sameName word "TRUE" then some (.bool true)
      else if Text.sameName word "FALSE" then some (.bool false)
      else none

/-- The keyword or the integer at the front of a text, behind a sign, and what follows. -/
def readWord? (sign cs : List Char) : Option (Value × List Char) :=
  (ofWord? (String.ofList (sign ++ cs.takeWhile isWordChar))).map fun v =>
    (v, cs.dropWhile isWordChar)

/-- The literal at the front of a text, and what follows it. -/
def readLiteral? : List Char → Option (Value × List Char)
  | '\'' :: rest => (readText? rest).map fun r => (.text (String.ofList r.1), r.2)
  | 'X' :: '\'' :: rest => (readBytes? rest).map fun r => (.bytes r.1, r.2)
  | '-' :: rest => readWord? ['-'] rest
  | cs => readWord? [] cs

/-- What may stand behind a literal: nothing, or a comma, a closing parenthesis or a space. -/
def MayFollow (rest : List Char) : Prop := ∀ c ∈ rest.head?, c = ',' ∨ c = ')' ∨ c = ' '

theorem MayFollow.isWordChar_eq {rest : List Char} (h : MayFollow rest) :
    ∀ c ∈ rest.head?, isWordChar c = false := by
  intro c hc
  rcases h c hc with rfl | rfl | rfl <;> decide

theorem MayFollow.ne_quote {rest : List Char} (h : MayFollow rest) :
    ∀ c ∈ rest.head?, c ≠ '\'' := by
  intro c hc
  rcases h c hc with rfl | rfl | rfl <;> decide

variable {rest : List Char}

/-! ### Texts and bytes -/

/-- **A text ends at the quote behind it**, as every quote inside is followed by another. -/
theorem readText?_doubleQuotes (cs : List Char) (h : ∀ c ∈ rest.head?, c ≠ '\'') :
    readText? (doubleQuotes cs ++ '\'' :: rest) = some (cs, rest) := by
  induction cs with
  | nil =>
      cases rest with
      | nil => rfl
      | cons c rest =>
          have hc : c ≠ '\'' := h c rfl
          simp [doubleQuotes, readText?, hc]
  | cons c cs ih =>
      by_cases hc : c = '\''
      · subst hc
        simp [doubleQuotes, readText?, ih]
      · simp [doubleQuotes, readText?, hc, ih]

theorem hexValue?_hexDigit : ∀ n < 16, hexValue? (hexDigit 'A' n) = some n := by decide

theorem hexDigit_ne_quote : ∀ n < 16, hexDigit 'A' n ≠ '\'' := by decide

/-- Bytes are read back from their digits. -/
theorem readBytes?_hexChars (bs : List UInt8) :
    readBytes? (hexChars 'A' bs ++ '\'' :: rest) = some (bs, rest) := by
  induction bs with
  | nil => rfl
  | cons b bs ih =>
      have hb := b.toNat_lt
      have hhigh : b.toNat / 16 < 16 := by omega
      have hlow : b.toNat % 16 < 16 := by omega
      have hbyte : UInt8.ofNat (16 * (b.toNat / 16) + b.toNat % 16) = b := by
        rw [Nat.div_add_mod, UInt8.ofNat_toNat]
      simp only [hexChars, List.cons_append, readBytes?, hexDigit_ne_quote _ hhigh, imp_self,
        hexValue?_hexDigit _ hhigh, hexValue?_hexDigit _ hlow, ih, Option.bind_eq_bind,
        Option.bind_some, hbyte]

/-! ### Words -/

/-- A word ends where something follows that is in no word. -/
theorem readWord?_append {word : List Char} (sign : List Char)
    (hword : ∀ c ∈ word, isWordChar c = true) (hrest : ∀ c ∈ rest.head?, isWordChar c = false) :
    readWord? sign (word ++ rest) =
      (ofWord? (String.ofList (sign ++ word))).map fun v => (v, rest) := by
  have hnone : rest.takeWhile isWordChar = [] := by
    cases rest with
    | nil => rfl
    | cons c rest => rw [List.takeWhile_cons, hrest c rfl, if_neg Bool.false_ne_true]
  rw [readWord?, List.takeWhile_append_of_pos hword, hnone, List.append_nil,
    List.dropWhile_append_of_pos hword, Text.dropWhile_eq_self hrest]

theorem isWordChar_of_isDigit {c : Char} (h : Text.isDigit c = true) : isWordChar c = true := by
  rw [Text.isDigit_eq] at h
  simp [isWordChar, Char.isAlphanum, h]

/-- A digit is neither a quote nor a sign, and it begins no bytes. -/
theorem readLiteral?_of_isDigit {c : Char} (h : Text.isDigit c = true) (cs : List Char) :
    readLiteral? (c :: cs) = readWord? [] (c :: cs) := by
  have hquote : c ≠ '\'' := by
    rintro rfl
    cases h
  have hbytes : c ≠ 'X' := by
    rintro rfl
    cases h
  have hminus : c ≠ '-' := by
    rintro rfl
    cases h
  simp [readLiteral?, hquote, hbytes, hminus]

/-- An integer is read back from its digits. -/
theorem readLiteral?_numeral (n : Int64) (hrest : ∀ c ∈ rest.head?, isWordChar c = false) :
    readLiteral? (Text.numeral n.toInt ++ rest) = some (.int n, rest) := by
  have hdigits : ∀ c ∈ Nat.toDigits 10 n.toInt.natAbs, isWordChar c = true := fun c hc =>
    isWordChar_of_isDigit
      ((Text.isDigit_eq c).trans (Nat.isDigit_of_mem_toDigits (by omega) (by omega) hc))
  have hword : ofWord? (String.ofList (Text.numeral n.toInt)) = some (.int n) := by
    rw [ofWord?, Text.readInt64?, Text.readInt64_numeral]
    rfl
  unfold Text.numeral at hword ⊢
  by_cases hneg : n.toInt < 0
  · rw [if_pos hneg] at hword ⊢
    rw [List.cons_append, readLiteral?, readWord?_append _ hdigits hrest, List.singleton_append,
      hword]
    rfl
  · rw [if_neg hneg] at hword ⊢
    have hfirst : readLiteral? (Nat.toDigits 10 n.toInt.natAbs ++ rest) =
        readWord? [] (Nat.toDigits 10 n.toInt.natAbs ++ rest) := by
      obtain ⟨c, digits, hcons, hc⟩ := Text.exists_toDigits_eq_cons n.toInt.natAbs
      rw [hcons, List.cons_append, readLiteral?_of_isDigit hc]
    rw [hfirst, readWord?_append _ hdigits hrest, List.nil_append, hword]
    rfl

/-! ### Literals -/

/-- **A value is read back from its literal**, and what follows is left as it is. -/
theorem readLiteral?_append {v : Value} (hv : v.isFloat = false) (hrest : MayFollow rest) :
    readLiteral? (v.literal.toList ++ rest) = some (v, rest) := by
  have hword := hrest.isWordChar_eq
  cases v with
  | null =>
      have hchars : ['N', 'U', 'L', 'L'].all isWordChar = true := by decide
      exact (readWord?_append [] (List.all_eq_true.1 hchars) hword).trans rfl
  | bool b =>
      cases b with
      | false =>
          have hchars : ['f', 'a', 'l', 's', 'e'].all isWordChar = true := by decide
          exact (readWord?_append [] (List.all_eq_true.1 hchars) hword).trans rfl
      | true =>
          have hchars : ['t', 'r', 'u', 'e'].all isWordChar = true := by decide
          exact (readWord?_append [] (List.all_eq_true.1 hchars) hword).trans rfl
  | int n =>
      rw [literal, Text.toList_toString]
      exact readLiteral?_numeral n hword
  | float x => cases hv
  | text s =>
      have hquoted : (text s).literal.toList ++ rest =
          '\'' :: (doubleQuotes s.toList ++ '\'' :: rest) := by
        simp [literal, quoted]
      rw [hquoted, readLiteral?, readText?_doubleQuotes s.toList hrest.ne_quote]
      simp
  | bytes bs =>
      have hdigits : (bytes bs).literal.toList ++ rest =
          'X' :: '\'' :: (hexChars 'A' bs ++ '\'' :: rest) := by
        simp [literal, Text.hexUpper]
      rw [hdigits, readLiteral?, readBytes?_hexChars]
      rfl

/-- **A literal does not leave its place.**  Every value but a number in floating point is read back
from its literal, whatever follows it in a list of values; and no other such value has that
literal. -/
theorem readLiteral?_literal (v : Value) (hv : v.isFloat = false) :
    (∀ rest, MayFollow rest → readLiteral? (v.literal.toList ++ rest) = some (v, rest)) ∧
      ∀ w : Value, w.isFloat = false → w ≠ v → w.literal ≠ v.literal := by
  refine ⟨fun rest hrest => readLiteral?_append hv hrest, fun w hw hne hsame => hne ?_⟩
  have hend : MayFollow [] := by simp [MayFollow]
  have hread := readLiteral?_append hw hend
  rw [hsame, readLiteral?_append hv hend] at hread
  exact (congrArg Prod.fst (Option.some.inj hread)).symm

/-- A number in floating point is written without its fraction when that is zero, as the integer
is. -/
example : (float ⟨0x3FF0000000000000⟩).literal = (int 1).literal := by decide +kernel

/-- A text with quotes at both ends, and with what looks like the end of a row, between other
values. -/
theorem readLiteral?_literal_quotes :
    (text "'x'), ('").isFloat = false ∧ MayFollow ", 2)".toList ∧
      readLiteral? ("'''x''), ('''".toList ++ ", 2)".toList) =
        some (text "'x'), ('", ", 2)".toList) ∧
      (text "'x'), (''").literal ≠ (text "'x'), ('").literal := by
  have hread := readLiteral?_literal (text "'x'), ('") rfl
  have hrest : MayFollow ", 2)".toList := by simp [MayFollow]
  exact ⟨rfl, hrest, hread.1 _ hrest, hread.2 _ rfl (by decide)⟩

end ShardedSql.Value
