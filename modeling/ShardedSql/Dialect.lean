/-
**Dialects of the data sources.**

Main definitions:

* `ShardedSql.Dialect` — the dialects, which differ in how a window is cut out of merged rows;
* `ShardedSql.Dialect.parse` — reading the name of a dialect.

Main results:

* `ShardedSql.Dialect.parse_name` — **a dialect is read back from its name**.
-/

import ShardedSql.Fault
import ShardedSql.Text.Ascii

set_option relaxedAutoImplicit false
set_option autoImplicit false

namespace ShardedSql

/-- The dialects of the data sources. -/
inductive Dialect where
  | mySql
  | postgreSql
  | h2
  | oracle
  | sqlServer
  deriving Repr, DecidableEq, Inhabited

namespace Dialect

/-- The name of a dialect. -/
def name : Dialect → String
  | .mySql => "MySQL"
  | .postgreSql => "PostgreSQL"
  | .h2 => "H2"
  | .oracle => "Oracle"
  | .sqlServer => "SQLServer"

/-- The dialects by their names in lower case. -/
def names : List (String × Dialect) :=
  [("mysql", .mySql), ("postgresql", .postgreSql), ("postgres", .postgreSql), ("h2", .h2),
    ("oracle", .oracle), ("sqlserver", .sqlServer)]

/-- Reads the name of a dialect, whatever the case of its letters. -/
def parse (s : String) : Outcome Dialect :=
  match names.lookup (Text.foldCase s) with
  | some d => .ok d
  | none => .error ((Fault.config "Unknown database dialect").note "dialect" s)

theorem parse_name (d : Dialect) : (parse d.name).toOption = some d := by
  cases d <;> decide +kernel

end Dialect

end ShardedSql
