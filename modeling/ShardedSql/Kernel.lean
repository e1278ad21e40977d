/-
**The kernel: from a logical statement to one result.**

A statement is routed and its physical statements are made; they run on the data sources; and their
rows are merged.

Main definitions:

* `ShardedSql.Kernel` — a rule with settings, a dialect and a limit of connections;
* `ShardedSql.Kernel.prepare` — the physical statements of a logical one;
* `ShardedSql.Kernel.merge` — the merged result of some cursors;
* `ShardedSql.Kernel.query`, `ShardedSql.Kernel.update` — running what was prepared.
-/

import ShardedSql.Execution
import ShardedSql.Execution.Log
import ShardedSql.Merged.OfCursors
import ShardedSql.Settings

set_option relaxedAutoImplicit false
set_option autoImplicit false

namespace ShardedSql

/-- A rule with settings, a dialect and a limit of connections. -/
structure Kernel where
  rule : Rule
  settings : Settings
  dialect : Dialect
  limit : ConnectionLimit
  deriving Repr

/-- A statement that is ready to run. -/
structure Prepared where
  routed : Routed
  statements : List PhysicalSql
  /-- What is logged of it. -/
  log : List String
  deriving Repr, Inhabited

namespace Kernel

/-- A kernel, for which the limit of connections in the settings has to be at least one. -/
def ofRule (rule : Rule) (settings : Settings) (dialect : Dialect) : Outcome Kernel := do
  let limit ← ConnectionLimit.ofNat settings.maxConnections
  pure ⟨rule, settings, dialect, limit⟩

/-- What is logged of a statement. -/
def log (k : Kernel) (logical : String) (statements : List PhysicalSql) : List String :=
  if k.settings.sqlShow then SqlLog.lines k.settings.sqlSimple logical statements else []

/-- The physical statements of a logical one. -/
def prepare (k : Kernel) (sql : LogicalSql) : Rule.Counting Prepared := do
  let routed ← sql.route k.rule
  let statements ← liftM (m := Except Fault) (routed.physical k.rule)
  pure ⟨routed, statements, k.log sql.text statements⟩

/-- The merged result of the cursors of a statement. -/
def merge (k : Kernel) (sql : LogicalSql) (cursors : List Cursor) : Except MergeFailure Merged :=
  Merged.ofCursors k.rule k.dialect sql.statement sql.parameters cursors

section

variable {m : Type → Type} [Monad m]

/-- Runs a statement that returns rows. -/
def query (k : Kernel) (sources : DataSources m) (p : Prepared) : m (Outcome Merged) := do
  match ← Execution.query sources k.limit p.statements with
  | .error e => pure (.error e.fault)
  | .ok cursors => pure ((k.merge p.routed.sql cursors).mapError (·.fault))

/-- Runs a statement that changes rows, and counts them. -/
def update (k : Kernel) (sources : DataSources m) (p : Prepared) : m (Outcome Nat) := do
  let counts ← Execution.update sources k.limit p.statements
  pure (counts.map Execution.total)

end

end Kernel

end ShardedSql
