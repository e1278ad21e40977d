/-
**Running physical statements.**

Connections run their statements in order.  The first failure ends the whole: the connection on
which it happened closes the cursors that it opened, and no further connection is started.

Main definitions:

* `ShardedSql.DataSources` — what can run statements;
* `ShardedSql.Execution.query` — the cursors of statements that return rows;
* `ShardedSql.Execution.update` — the counts of statements that change rows;
* `ShardedSql.Execution.total` — the sum of such counts.

Main results:

* `ShardedSql.Execution.total_le` — a total stays within 64 bits.
-/

import ShardedSql.Cursor
import ShardedSql.Execution.Connections

set_option relaxedAutoImplicit false
set_option autoImplicit false

namespace ShardedSql

/-- What can run statements: data sources with names, and how they answer. -/
structure DataSources (m : Type → Type) where
  names : List String
  /-- Runs a statement that returns rows. -/
  query : PhysicalSql → m (Outcome Cursor)
  /-- Runs a statement that changes rows, and counts them. -/
  update : PhysicalSql → m (Outcome Nat)

/-- A query that failed, with the cursors that it opened as they are then. -/
structure QueryFailure where
  fault : Fault
  opened : List Cursor

namespace Execution

/-- A failure while a statement ran. -/
def fault (p : PhysicalSql) (f : Fault) : Fault :=
  ((Fault.execution "Failed to execute unit")
    |>.note "data_source" p.dataSource |>.note "sql" p.text).because f

/-- Looks for the data sources of some groups, which all have to exist. -/
def checkSources (names : List String) (groups : List SourceGroup) : Outcome Unit :=
  match groups.find? fun g => !names.contains g.dataSource with
  | some g => .error ((Fault.execution "Missing data source").note "data_source" g.dataSource)
  | none => .ok ()

/-- The connections of some groups in the order in which they are started, each with its mode. -/
def connections (groups : List SourceGroup) : List (ConnectionMode × List PhysicalSql) :=
  groups.flatMap fun g => g.connections.map fun statements => (g.mode, statements)

/-! ### Queries -/

section

variable {m : Type → Type} [Monad m]

/-- Runs the queries of a connection after those that opened some cursors. -/
def queryConnection (ask : PhysicalSql → m (Outcome Cursor)) (mode : ConnectionMode)
    (opened : List Cursor) : List PhysicalSql → m (Except QueryFailure (List Cursor))
  | [] => pure (.ok opened)
  | p :: rest => do
      match ← ask p with
      | .error f => pure (.error ⟨fault p f, Cursor.released opened⟩)
      | .ok c =>
          match mode with
          | .streamed => queryConnection ask mode (opened ++ [c]) rest
          | .shared =>
              match c.materialize with
              | (.error f, c) => pure (.error ⟨fault p f, Cursor.released (opened ++ [c])⟩)
              | (.ok held, _) => queryConnection ask mode (opened ++ [held]) rest

/-- Runs the queries of some connections after those that opened some cursors. -/
def queryConnections (ask : PhysicalSql → m (Outcome Cursor)) (opened : List Cursor) :
    List (ConnectionMode × List PhysicalSql) → m (Except QueryFailure (List Cursor))
  | [] => pure (.ok opened)
  | (mode, statements) :: rest => do
      match ← queryConnection ask mode [] statements with
      | .error e => pure (.error { e with opened := opened ++ e.opened })
      | .ok more => queryConnections ask (opened ++ more) rest

/-- The cursors of statements that return rows: by data source in the order of their first
statements, and then in the order of the statements. -/
def query (sources : DataSources m) (limit : ConnectionLimit) (statements : List PhysicalSql) :
    m (Except QueryFailure (List Cursor)) :=
  let groups := limit.group statements
  match checkSources sources.names groups with
  | .error f => pure (.error ⟨f, []⟩)
  | .ok () => queryConnections sources.query [] (connections groups)

/-! ### Changes -/

/-- Runs statements that change rows, one after another, after those with some counts. -/
def updateAll (ask : PhysicalSql → m (Outcome Nat)) (counts : List Nat) :
    List PhysicalSql → m (Outcome (List Nat))
  | [] => pure (.ok counts)
  | p :: rest => do
      match ← ask p with
      | .error f => pure (.error (fault p f))
      | .ok n => updateAll ask (counts ++ [n]) rest

/-- The counts of statements that change rows, in the order of the cursors of queries. -/
def update (sources : DataSources m) (limit : ConnectionLimit) (statements : List PhysicalSql) :
    m (Outcome (List Nat)) :=
  let groups := limit.group statements
  match checkSources sources.names groups with
  | .error f => pure (.error f)
  | .ok () => updateAll sources.update [] ((connections groups).flatMap (·.2))

end

/-- The sum of counts held within 64 bits. -/
def total (counts : List Nat) : Nat :=
  counts.foldl (fun sum n => min (sum + n) Text.maxUInt64) 0

theorem total_le (counts : List Nat) : total counts ≤ Text.maxUInt64 := by
  have h : ∀ (sum : Nat), sum ≤ Text.maxUInt64 →
      counts.foldl (fun sum n => min (sum + n) Text.maxUInt64) sum ≤ Text.maxUInt64 := by
    induction counts with
    | nil => exact fun _ h => h
    | cons n rest ih => exact fun sum _ => ih _ (Nat.min_le_right _ _)
  exact h 0 (Nat.zero_le _)

end Execution

end ShardedSql
