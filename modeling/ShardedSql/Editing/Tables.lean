/-
**Edits that put actual tables in place of logical ones.**

Sharded tables are renamed where the statement names them, and where they qualify a column of its
condition or of its select list.  Aliases are left alone.

Main definitions:

* `ShardedSql.Editing.tables` — all edits of tables;
* `ShardedSql.Editing.ownerEdit?` — the edit of one qualifier.
-/

import ShardedSql.Editing

set_option relaxedAutoImplicit false
set_option autoImplicit false

namespace ShardedSql

namespace Editing

/-- A sharded table is among those of a statement. -/
def hasShardedTable (rule : Rule) (s : Statement) : Bool :=
  s.tables.any fun t => rule.isSharded t.name

/-- The edits of the sharded tables where the statement names them. -/
def namedTables (rule : Rule) (tables : List TableRef) : List Edit :=
  (tables.filter fun t => rule.isSharded t.name).map fun t => .table t.start t.stop t.name

/-- The edit of a qualifier at a place, when it is the name of a sharded table. -/
def ownerEdit? (rule : Rule) (tables : List TableRef) (owner : String) (start : Nat) :
    Option Edit :=
  match tables.find? fun t => Text.sameName t.name owner with
  | some t =>
      if rule.isSharded t.name then
        some (.table start (start + owner.utf8ByteSize - 1) t.name)
      else none
  | none => none

/-- The qualifiers of the columns in a condition, with their places. -/
def predicateOwners (p : Predicate) : List (String × Nat) :=
  p.leaves.filterMap fun leaf =>
    leaf.column?.bind fun c => c.owner.map fun owner => (owner, c.start)

/-- The qualifier of an item of the select list, with its place. -/
def projectionOwner? : Projection → Option (String × Nat)
  | .column owner _ _ start _ => owner.map fun o => (o, start)
  | .star owner start _ => owner.map fun o => (o, start)
  | _ => none

/-- The qualifiers in a statement that are looked at. -/
def owners (s : Statement) : List (String × Nat) :=
  (s.condition?.map predicateOwners).getD [] ++
    match s with
    | .select s => s.projections.items.filterMap projectionOwner?
    | _ => []

/-- The edits of some qualifiers. -/
def ownerEdits (rule : Rule) (tables : List TableRef) (owners : List (String × Nat)) :
    List Edit :=
  owners.filterMap fun o => ownerEdit? rule tables o.1 o.2

@[simp] theorem ownerEdits_nil (rule : Rule) (tables : List TableRef) :
    ownerEdits rule tables [] = [] := rfl

/-- The edits of the tables of a statement. -/
def tables (rule : Rule) (s : Statement) : List Edit :=
  namedTables rule s.tables ++ ownerEdits rule s.tables (owners s)

end Editing

end ShardedSql
