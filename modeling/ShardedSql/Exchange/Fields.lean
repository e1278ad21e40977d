/-
**Reading documents that may leave things out.**

In the exchange form a field that is missing is null, a missing list is empty, and a missing truth
value is false.

Main definitions:

* `ShardedSql.Document.textAt`, `ShardedSql.Document.natAt` and their companions — what a record
  holds under a name;
* `ShardedSql.Document.item` — an item of a list.
-/

import ShardedSql.Document

set_option relaxedAutoImplicit false
set_option autoImplicit false

namespace ShardedSql.Document

/-- The items of a list. -/
def items (d : Document) : List Document := d.list?.getD []

/-- The item of a list with a number. -/
def item (d : Document) (i : Nat) : Document := d.items.getD i .null

/-- A text, empty if it is none. -/
def asText (d : Document) : String := d.text?.getD ""

/-- An integer, if it is one. -/
def integer? : Document → Option Int
  | .integer n => some n
  | _ => none

/-- An integer, zero if it is none. -/
def asInt (d : Document) : Int := d.integer?.getD 0

/-- A number of things. -/
def asNat (d : Document) : Nat := d.asInt.toNat

/-- A truth value. -/
def asBool : Document → Bool
  | .bool b => b
  | _ => false

/-- A list in a field, each item of it read. -/
def listAt {α : Type} (d : Document) (name : String) (read : Document → α) : List α :=
  (d.field name).items.map read

/-- A text in a field. -/
def textAt (d : Document) (name : String) : String := (d.field name).asText

/-- A text in a field that may be missing. -/
def textAt? (d : Document) (name : String) : Option String := (d.field name).text?

/-- Texts in a field. -/
def textsAt (d : Document) (name : String) : List String := d.listAt name asText

/-- A number of things in a field. -/
def natAt (d : Document) (name : String) : Nat := (d.field name).asNat

/-- A number of things in a field that may be missing. -/
def natAt? (d : Document) (name : String) : Option Nat := (d.field name).integer?.map Int.toNat

/-- A truth value in a field. -/
def boolAt (d : Document) (name : String) : Bool := (d.field name).asBool

/-- What is read in a field that may be missing. -/
def optionAt {α : Type} (d : Document) (name : String) (read : Document → α) : Option α :=
  match d.field name with
  | .null => none
  | x => some (read x)

end ShardedSql.Document
