/-
**Groups of a primary and its replicas.**

A read of a group goes to one of its replicas: to each in turn, where turns are counted in 64 bits
and begin again after them, or to a random one.

Main definitions:

* `ShardedSql.Balancer` — how a replica is chosen;
* `ShardedSql.ReplicaGroup` — a logical data source that is a primary with replicas;
* `ShardedSql.ReplicaGroup.readSource` — the data source of the next read.

Main results:

* `ShardedSql.ReplicaGroup.readSource_mem` — **a read goes to a replica where there is one**.
-/

import ShardedSql.Readings

set_option relaxedAutoImplicit false
set_option autoImplicit false

namespace ShardedSql

/-- How a replica is chosen. -/
inductive Balancer where
  /-- Each in turn. -/
  | roundRobin
  /-- Any of them. -/
  | random
  deriving Repr, DecidableEq

namespace Balancer

/-- The name of a balancer. -/
def name : Balancer → String
  | .roundRobin => "ROUND_ROBIN"
  | .random => "RANDOM"

/-- The number that chooses a replica, and the turn and the random numbers after it. -/
def number (b : Balancer) (turn : UInt64) (draws : Draws) : Nat × UInt64 × Draws :=
  match b with
  | .roundRobin => (turn.toNat, turn + 1, draws)
  | .random =>
      let (n, draws) := draws.draw
      (n, turn, draws)

end Balancer

/-- A logical data source that is a primary with replicas. -/
structure ReplicaGroup where
  name : String
  primary : String
  replicas : List String
  balancer : Balancer
  deriving Repr, DecidableEq

namespace ReplicaGroup

/-- The replica that a number chooses, and the primary where there are none. -/
def source (g : ReplicaGroup) (n : Nat) : String :=
  (g.replicas[n % g.replicas.length]?).getD g.primary

/-- The data source of the next read, and the turn and the random numbers after it.  Without
replicas nothing is balanced. -/
def readSource (g : ReplicaGroup) (turn : UInt64) (draws : Draws) : String × UInt64 × Draws :=
  if g.replicas.isEmpty then (g.primary, turn, draws)
  else
    let (n, turn, draws) := g.balancer.number turn draws
    (g.source n, turn, draws)

theorem source_mem {g : ReplicaGroup} (h : g.replicas ≠ []) (n : Nat) :
    g.source n ∈ g.replicas := by
  have hlt : n % g.replicas.length < g.replicas.length :=
    Nat.mod_lt _ (List.length_pos_iff.2 h)
  rw [source, List.getElem?_eq_getElem hlt]
  exact List.getElem_mem hlt

theorem readSource_mem {g : ReplicaGroup} (h : g.replicas ≠ []) (turn : UInt64) (draws : Draws) :
    (g.readSource turn draws).1 ∈ g.replicas := by
  rw [readSource, if_neg (by simpa using h)]
  exact source_mem h _

end ReplicaGroup

end ShardedSql
