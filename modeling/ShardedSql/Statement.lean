/-
**Statements, and statements with their text and parameters.**

Main definitions:

* `ShardedSql.Statement` — a parsed statement of one of six kinds;
* `ShardedSql.Statement.tables`, `ShardedSql.Statement.tableNames` — the tables it names;
* `ShardedSql.LogicalSql` — a statement, its text and its parameters.
-/

import ShardedSql.Statement.Insert
import ShardedSql.Statement.Select

set_option relaxedAutoImplicit false
set_option autoImplicit false

namespace ShardedSql

/-- A statement that changes rows. -/
structure Update where
  tables : List TableRef := []
  assignments : List Assignment := []
  condition : Option Predicate := none
  deriving Repr, Inhabited

/-- A statement that removes rows. -/
structure Delete where
  tables : List TableRef := []
  condition : Option Predicate := none
  deriving Repr, Inhabited

/-- A parsed statement. -/
inductive Statement where
  | select (s : Select)
  | insert (i : Insert)
  | update (u : Update)
  | delete (d : Delete)
  /-- A definition of data, of which only the tables matter. -/
  | ddl (tables : List TableRef)
  /-- A grant or the like, which may name no table. -/
  | dcl (tables : List TableRef)
  deriving Repr, Inhabited

namespace Statement

/-- The name of the kind of a statement. -/
def kindName : Statement → String
  | .select _ => "SELECT"
  | .insert _ => "INSERT"
  | .update _ => "UPDATE"
  | .delete _ => "DELETE"
  | .ddl _ => "DDL"
  | .dcl _ => "DCL"

/-- The tables in the order in which they are named. -/
def tables : Statement → List TableRef
  | .select s => s.tables
  | .insert i => [i.table]
  | .update u => u.tables
  | .delete d => d.tables
  | .ddl tables => tables
  | .dcl tables => tables

/-- Adds a name to those before it unless it is among them. -/
def addName (names : List String) (t : TableRef) : List String :=
  if names.any fun n => Text.sameName n t.name then names else names ++ [t.name]

/-- The names of the tables, each once. -/
def tableNames (s : Statement) : List String := s.tables.foldl addName []

/-- The condition on rows. -/
def condition? : Statement → Option Predicate
  | .select s => s.condition
  | .update u => u.condition
  | .delete d => d.condition
  | _ => none

/-- A replica may answer the statement. -/
def isReadOnly : Statement → Bool
  | .select s => !s.lock
  | _ => false

end Statement

/-- A statement with its text and its parameters. -/
structure LogicalSql where
  text : String
  statement : Statement
  parameters : List Value := []
  deriving Repr, Inhabited

end ShardedSql
