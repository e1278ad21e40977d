/-
**Dictionaries in the order of their keys.**

Main definitions:

* `ShardedSql.Dictionary` — pairs of a name and what it stands for;
* `ShardedSql.Dictionary.insert`, `ShardedSql.Dictionary.get?` — writing and reading;
* `ShardedSql.Dictionary.ofList` — a dictionary from pairs, of which the last for a name counts.

Main results:

* `ShardedSql.Dictionary.get?_insert_self`, `ShardedSql.Dictionary.get?_insert_of_ne` — **reading
  after writing**.
-/

set_option relaxedAutoImplicit false
set_option autoImplicit false

namespace ShardedSql

/-- Names and what they stand for, each name once and in the order of the names. -/
structure Dictionary (α : Type) where
  /-- The pairs, the least name first. -/
  entries : List (String × α) := []
  deriving Repr, Inhabited, DecidableEq

namespace Dictionary

variable {α : Type}

/-- The dictionary without names. -/
def empty : Dictionary α := {}

/-- Puts a pair in its place, instead of one with the same name. -/
def insertEntry (key : String) (value : α) : List (String × α) → List (String × α)
  | [] => [(key, value)]
  | e :: rest =>
      if key = e.1 then (key, value) :: rest
      else if key < e.1 then (key, value) :: e :: rest
      else e :: insertEntry key value rest

/-- The dictionary in which a name stands for a value. -/
def insert (d : Dictionary α) (key : String) (value : α) : Dictionary α :=
  ⟨insertEntry key value d.entries⟩

/-- What a name stands for. -/
def get? (d : Dictionary α) (key : String) : Option α := d.entries.lookup key

/-- Whether a name stands for something. -/
def contains (d : Dictionary α) (key : String) : Bool := (d.get? key).isSome

/-- The names in order. -/
def keys (d : Dictionary α) : List String := d.entries.map Prod.fst

/-- The dictionary of some pairs; of two pairs with one name the later counts. -/
def ofList (pairs : List (String × α)) : Dictionary α :=
  pairs.foldl (fun d kv => d.insert kv.1 kv.2) empty

@[simp] theorem get?_insert_self (d : Dictionary α) (key : String) (value : α) :
    (d.insert key value).get? key = some value := by
  cases d with
  | mk entries =>
      simp only [get?, insert]
      induction entries with
      | nil => simp [insertEntry]
      | cons e rest ih =>
          simp only [insertEntry]
          split
          · simp
          · split
            · simp
            · rename_i hne _
              rw [List.lookup_cons]
              simp [beq_eq_false_iff_ne.2 hne, ih]

theorem get?_insert_of_ne (d : Dictionary α) (key other : String) (value : α)
    (h : other ≠ key) : (d.insert key value).get? other = d.get? other := by
  cases d with
  | mk entries =>
      simp only [get?, insert]
      induction entries with
      | nil => simp [insertEntry, List.lookup_cons, beq_eq_false_iff_ne.2 h]
      | cons e rest ih =>
          simp only [insertEntry]
          split
          · rename_i heq
            rw [List.lookup_cons, List.lookup_cons, ← heq]
            simp [beq_eq_false_iff_ne.2 h]
          · split
            · simp [List.lookup_cons, beq_eq_false_iff_ne.2 h]
            · rw [List.lookup_cons, List.lookup_cons, ih]

end Dictionary

end ShardedSql
