/-
**Inline expressions: many names written as one.**

Commas outside braces separate segments.  A segment is plain text with placeholders in it: a range
of integers `${a..b}` or a list of values `${[x, y]}`, where the brackets may be left out.  It
stands for every way to choose one value for each placeholder, the last placeholder changing
fastest.

Main definitions:

* `ShardedSql.Inline.splitTopLevel` — the segments;
* `ShardedSql.Inline.scan` — a segment as its placeholders, each with the text before it;
* `ShardedSql.Inline.choices` — the values of a placeholder;
* `ShardedSql.Inline.combine` — all the choices;
* `ShardedSql.Inline.expand` — the names that an expression stands for.

Main results:

* `ShardedSql.Inline.combine_length` — **one name for each combination**.
-/

import ShardedSql.Fault
import ShardedSql.Text.Blank
import ShardedSql.Text.Integer

set_option relaxedAutoImplicit false
set_option autoImplicit false

namespace ShardedSql.Inline

open Text (trimChars)

/-! ### Segments -/

/-- The fault of braces that do not match. -/
def unbalanced (expression : String) : Fault :=
  (Fault.config "Unbalanced braces in inline expression").note "expression" expression

/-- The parts of `cs` between the commas outside braces, where `depth` braces are open and
`current` is the beginning of the first part; `none` when braces do not match. -/
def splitTopLevel (depth : Nat) (current : List Char) : List Char → Option (List (List Char))
  | [] => if depth = 0 then some [current] else none
  | c :: rest =>
      if c = '\x7b' then splitTopLevel (depth + 1) (current ++ [c]) rest
      else if c = '\x7d' then
        if depth = 0 then none else splitTopLevel (depth - 1) (current ++ [c]) rest
      else if c = ',' ∧ depth = 0 then (splitTopLevel depth [] rest).map (current :: ·)
      else splitTopLevel depth (current ++ [c]) rest

/-! ### Placeholders -/

/-- A placeholder of a segment, with the text that stands before it. -/
structure Placeholder where
  /-- The text since the placeholder before. -/
  literal : List Char
  /-- What stands between the braces. -/
  body : List Char
  deriving DecidableEq, Repr

/-- The placeholders of a segment and the text after the last.  `literal` is the text read so far,
and `body` what was read of an open placeholder. -/
def scan (literal : List Char) (body : Option (List Char)) :
    List Char → Option (List Placeholder × List Char)
  | [] => if body.isNone then some ([], literal) else none
  | '$' :: '\x7b' :: rest =>
      match body with
      | none => scan literal (some []) rest
      | some b => scan literal (some (b ++ ['$', '\x7b'])) rest
  | c :: rest =>
      match body with
      | none => scan (literal ++ [c]) none rest
      | some b =>
          if c = '\x7d' then
            (scan [] none rest).map fun p => (⟨literal, b⟩ :: p.1, p.2)
          else scan literal (some (b ++ [c])) rest

/-- The text before and after the first two dots in a row. -/
def splitAtDots? : List Char → Option (List Char × List Char)
  | '.' :: '.' :: rest => some ([], rest)
  | c :: rest => (splitAtDots? rest).map fun p => (c :: p.1, p.2)
  | [] => none

/-- Reads an integer between white space. -/
def readInt (cs : List Char) : Outcome Int :=
  match Text.readInt64 (String.ofList (trimChars cs)) with
  | .ok n => .ok n.toInt
  | .error e => .error (Fault.unreadableInteger e.text)

/-- The integers from `a` to `b`. -/
def integers (a b : Int) : List Int := (List.range (b - a + 1).toNat).map fun (i : Nat) => a + i

/-- The text without one sign at its beginning, if it is there. -/
def dropFirst (c : Char) : List Char → List Char
  | [] => []
  | d :: rest => if d = c then rest else d :: rest

/-- The text without one sign at its end, if it is there. -/
def dropLast (c : Char) (cs : List Char) : List Char := (dropFirst c cs.reverse).reverse

/-- The character is a quote. -/
def isQuote (c : Char) : Bool := c = '\'' || c = '"'

/-- The text without the quotes at its ends. -/
def unquoted (cs : List Char) : List Char :=
  ((cs.dropWhile isQuote).reverse.dropWhile isQuote).reverse

/-- The values that a placeholder of `segment` may take. -/
def choices (segment : String) (body : List Char) : Outcome (List (List Char)) :=
  let body := trimChars body
  match splitAtDots? body with
  | some (lower, upper) => do
      let lower ← readInt lower
      let upper ← readInt upper
      if lower > upper then
        throw ((Fault.config "Inline range lower bound is greater than upper bound").note
          "expression" segment)
      else pure ((integers lower upper).map fun n => (toString n).toList)
  | none =>
      let items := (dropLast ']' (dropFirst '[' body)).splitOn ','
      let values := (items.map fun v => unquoted (trimChars v)).filter fun v => !v.isEmpty
      if values.isEmpty then
        .error ((Fault.config "Empty inline expression placeholder").note "expression" segment)
      else .ok values

/-- Every way to put a choice for each placeholder after one of the beginnings. -/
def combine (starts : List (List Char)) : List (List Char × List (List Char)) → List (List Char)
  | [] => starts
  | (literal, values) :: rest =>
      combine (starts.flatMap fun s => values.map fun v => s ++ literal ++ v) rest

theorem combine_length (starts : List (List Char))
    (parts : List (List Char × List (List Char))) :
    (combine starts parts).length =
      starts.length * parts.foldr (fun p n => p.2.length * n) 1 := by
  induction parts generalizing starts with
  | nil => simp [combine]
  | cons p rest ih =>
      obtain ⟨literal, values⟩ := p
      simp [combine, ih, List.length_flatMap, List.map_const', Nat.mul_assoc]

/-- The names that a segment stands for. -/
def expandSegment (segment : List Char) : Outcome (List String) :=
  let text := String.ofList segment
  match scan [] none segment with
  | none => .error (unbalanced text)
  | some (placeholders, tail) => do
      let parts ← placeholders.mapM fun p => do
        let values ← choices text p.body
        pure (p.literal, values)
      pure ((combine [[]] parts).map fun name => String.ofList (name ++ tail))

/-- The names that an expression stands for. -/
def expand (expression : String) : Outcome (List String) :=
  match splitTopLevel 0 [] expression.toList with
  | none => .error (unbalanced expression)
  | some segments => do
      let segments := (segments.map trimChars).filter fun s => !s.isEmpty
      let names ← segments.mapM expandSegment
      pure names.flatten

end ShardedSql.Inline
