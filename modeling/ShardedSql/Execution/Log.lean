/-
**What is logged of a statement before it runs.**

Main definitions:

* `ShardedSql.SqlLog.lines` — the logical statement, and each physical one or a summary of them.

Main results:

* `ShardedSql.SqlLog.length_lines` — a line for each physical statement, and one before them.
-/

import ShardedSql.Physical

set_option relaxedAutoImplicit false
set_option autoImplicit false

namespace ShardedSql.SqlLog

/-- The data sources and the number of the physical statements. -/
def summary (statements : List PhysicalSql) : String :=
  "Actual SQL(simple): [" ++ ", ".intercalate (PhysicalSql.dataSources statements) ++ "] ::: " ++
    toString statements.length

/-- The logical statement, and each physical one or a summary of them. -/
def lines (simple : Bool) (logical : String) (statements : List PhysicalSql) : List String :=
  ("Logic SQL: " ++ logical) ::
    if simple then [summary statements]
    else statements.map fun p => "Actual SQL: " ++ p.render

theorem length_lines (logical : String) (statements : List PhysicalSql) :
    (lines false logical statements).length = statements.length + 1 := by
  simp [lines]

end ShardedSql.SqlLog
