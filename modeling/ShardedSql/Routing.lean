/-
**Routings: all placements of a statement.**

Main definitions:

* `ShardedSql.Routing` — the placements, each once, and for an insertion the nodes of each row;
* `ShardedSql.Routing.ofPlacements` — keeping the first of equal placements;
* `ShardedSql.Routing.dataSources` — the actual data sources that are reached.

Main results:

* `ShardedSql.Routing.mem_ofPlacements` — **no placement is lost**.
-/

import ShardedSql.Placement

set_option relaxedAutoImplicit false
set_option autoImplicit false

namespace ShardedSql

/-- All placements of a statement. -/
structure Routing where
  /-- Where the statement runs. -/
  placements : List Placement := []
  /-- For an insertion, the data nodes of each row. -/
  rowNodes : List (List DataNode) := []
  deriving Repr, DecidableEq, Inhabited

namespace Routing

/-- A routing to some placements, of which equal ones are kept once. -/
def ofPlacements (placements : List Placement) : Routing :=
  { placements := placements.eraseDups }

/-- There is exactly one placement. -/
def isSingle (r : Routing) : Bool := r.placements.length = 1

/-- The actual data sources that are reached, each once. -/
def dataSources (r : Routing) : List String := (r.placements.map (·.source.actual)).eraseDups

@[simp] theorem mem_ofPlacements (p : Placement) (placements : List Placement) :
    p ∈ (ofPlacements placements).placements ↔ p ∈ placements := by
  simp [ofPlacements]

end Routing

end ShardedSql
