/-
**Documents: the tree form in which configurations and values are written down.**

Main definitions:

* `ShardedSql.Document` — null, truth values, numbers, texts, lists and records;
* `ShardedSql.Document.field?` — what a record holds under a name;
* `ShardedSql.Document.strings?` and its companions — a document read as a given shape;
* `ShardedSql.Document.ofOption`, `ShardedSql.Document.ofList` — writing what may be missing, and
  lists.
-/

import ShardedSql.Decimal.Binary64

set_option relaxedAutoImplicit false
set_option autoImplicit false

namespace ShardedSql

/-- A tree of plain data. -/
inductive Document where
  | null
  | bool (b : Bool)
  /-- A number written without point and exponent that fits 64 bits, with or without a sign. -/
  | integer (n : Int)
  /-- Any other number. -/
  | real (x : Decimal.Binary64)
  | text (s : String)
  | list (items : List Document)
  | record (fields : List (String × Document))
  deriving Repr, Inhabited

namespace Document

/-- What a record holds under a name; of two fields with one name the later counts. -/
def field? (d : Document) (name : String) : Option Document :=
  match d with
  | .record fields => (fields.reverse.find? fun kv => kv.1 = name).map Prod.snd
  | _ => none

/-- What a record holds under a name, null when there is nothing. -/
def field (d : Document) (name : String) : Document := (d.field? name).getD .null

/-- The document is null. -/
def isNull : Document → Bool
  | .null => true
  | _ => false

/-- A text. -/
def text? : Document → Option String
  | .text s => some s
  | _ => none

/-- A list. -/
def list? : Document → Option (List Document)
  | .list items => some items
  | _ => none

/-- A list of texts. -/
def strings? (d : Document) : Option (List String) := d.list? >>= fun items => items.mapM text?

/-- Null or what `read` finds. -/
def optional? {α : Type} (read : Document → Option α) : Document → Option (Option α)
  | .null => some none
  | d => (read d).map some

/-- A list of what `read` finds in each item. -/
def listOf? {α : Type} (read : Document → Option α) (d : Document) : Option (List α) :=
  d.list? >>= fun items => items.mapM read

/-- The fields of a record, with what `read` finds in each. -/
def fieldsOf? {α : Type} (read : Document → Option α) : Document → Option (List (String × α))
  | .record fields => fields.mapM fun kv => (read kv.2).map fun v => (kv.1, v)
  | _ => none

/-! ### Records with known fields -/

/-- The contents of a record whose field names are known: by name, or in the order of the names
when it is written as a list, which then has no further item. -/
def contents? (names : List String) : Document → Option (List (Option Document))
  | .list items =>
      if items.length ≤ names.length then
        some ((List.range names.length).map fun i => items[i]?)
      else none
  | .record fields => some (names.map fun name => (Document.record fields).field? name)
  | _ => none

/-- A field that has to be there. -/
def required? {α : Type} (read : Document → Option α) (d : Option Document) : Option α :=
  d >>= read

/-- A field with a value of its own when it is absent. -/
def defaulted? {α : Type} (absent : α) (read : Document → Option α) :
    Option Document → Option α
  | none => some absent
  | some d => read d

/-! ### Writing -/

/-- What may be missing, null if it is. -/
def ofOption {α : Type} (write : α → Document) : Option α → Document
  | some a => write a
  | none => .null

/-- A list, each item of it written. -/
def ofList {α : Type} (write : α → Document) (xs : List α) : Document := .list (xs.map write)

/-- Texts. -/
def ofTexts (xs : List String) : Document := ofList .text xs

/-- A number of things. -/
def ofNat (n : Nat) : Document := .integer n

end Document

end ShardedSql
