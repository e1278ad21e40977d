/-
**Connections: how the statements for one data source share them.**

A query may hold a limited number of connections for each data source.  Where every statement has
one of its own its rows are streamed.  Otherwise a connection runs several statements one after
another, and the rows of each are read before the next one starts.

Main definitions:

* `ShardedSql.ConnectionLimit` — how many connections may be held, at least one;
* `ShardedSql.ConnectionMode` — whether connections are shared;
* `ShardedSql.ConnectionLimit.group` — statements by data source and connection.

Main results:

* `ShardedSql.flatten_chunks` — **a list is cut into chunks without loss**;
* `ShardedSql.ConnectionLimit.groupOf_statements` — the connections of a data source run its
  statements in order.
-/

import ShardedSql.Physical

set_option relaxedAutoImplicit false
set_option autoImplicit false

namespace ShardedSql

/-! ### Chunks -/

/-- The list in chunks of `n + 1` items, of which the last one may be shorter. -/
def chunks {α : Type} (n : Nat) : List α → List (List α)
  | [] => []
  | a :: rest => (a :: rest.take n) :: chunks n (rest.drop n)
  termination_by xs => xs.length
  decreasing_by simp only [List.length_drop, List.length_cons]; omega

@[simp] theorem flatten_chunks {α : Type} (n : Nat) (xs : List α) :
    (chunks n xs).flatten = xs := by
  fun_induction chunks n xs with
  | case1 => rfl
  | case2 a rest ih => simp [ih]

/-! ### Limits -/

/-- How many connections a query may hold for each data source. -/
structure ConnectionLimit where
  max : Nat
  pos : 0 < max
  deriving Repr, DecidableEq

/-- Whether the statements of a data source share connections. -/
inductive ConnectionMode where
  /-- Each statement has a connection of its own, and its rows are streamed. -/
  | streamed
  /-- Connections are shared, and the rows of each statement are read at once. -/
  | shared
  deriving Repr, DecidableEq, Inhabited

/-- The connections of one data source, each with its statements in order. -/
structure SourceGroup where
  dataSource : String
  mode : ConnectionMode
  connections : List (List PhysicalSql)
  deriving Repr, DecidableEq, Inhabited

namespace ConnectionLimit

/-- A limit, which has to be at least one. -/
def ofNat (n : Nat) : Outcome ConnectionLimit :=
  if h : 0 < n then .ok ⟨n, h⟩
  else
    .error ((Fault.config "Connection limit must be at least one").note
      "max_connections_size_per_query" (toString n))

/-- How many statements a connection runs when there are `n` of them. -/
def perConnection (limit : ConnectionLimit) (n : Nat) : Nat :=
  (n + limit.max - 1) / limit.max

/-- The connections of a data source with some statements. -/
def groupOf (limit : ConnectionLimit) (dataSource : String) (statements : List PhysicalSql) :
    SourceGroup where
  dataSource := dataSource
  mode := if limit.max < statements.length then .shared else .streamed
  connections := chunks (limit.perConnection statements.length - 1) statements

/-- Statements by data source, in the order of their first ones, and by connection. -/
def group (limit : ConnectionLimit) (statements : List PhysicalSql) : List SourceGroup :=
  (PhysicalSql.dataSources statements).map fun s =>
    limit.groupOf s (statements.filter fun p => p.dataSource = s)

@[simp] theorem groupOf_statements (limit : ConnectionLimit) (dataSource : String)
    (statements : List PhysicalSql) :
    (limit.groupOf dataSource statements).connections.flatten = statements := by
  simp [groupOf]

end ConnectionLimit

end ShardedSql
