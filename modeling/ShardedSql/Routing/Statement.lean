/-
**Routing statements.**

How a statement is routed depends on its kind and on the tables that it names.  Definitions of data
go to every node of the sharded tables; statements on broadcast tables go to one data source when
they read and to all of them when they write; statements without sharded tables go to the default
data source; and sharded tables are routed by the conditions of the statement.  At last a data
source that has replicas is replaced by one of them, or by the primary.

Main definitions:

* `ShardedSql.Routing.ofTables` — the routing before replicas are looked at;
* `ShardedSql.Routing.withReplicas` — the physical data sources of a routing;
* `ShardedSql.Routed` — a statement with its routing and its generated key;
* `ShardedSql.LogicalSql.route` — the routing of a statement.

Main results:

* `ShardedSql.Routing.withReplicas_of_nil` — **without replicas nothing is replaced**.
-/

import ShardedSql.Routing.Join

set_option relaxedAutoImplicit false
set_option autoImplicit false

namespace ShardedSql

namespace Routing

/-! ### Without conditions -/

/-- A placement in one data source, where all tables keep their names. -/
def unchanged (tables : List String) (source : String) : Placement :=
  ⟨Renaming.same source, tables.map Renaming.same⟩

/-- A placement in each data source. -/
def everywhere (rule : Rule) (tables : List String) : Routing :=
  ofPlacements (rule.dataSources.map (unchanged tables))

/-- One placement, in the first data source. -/
def anywhere (rule : Rule) (tables : List String) : Routing :=
  ofPlacements (rule.dataSources.head?.toList.map (unchanged tables))

/-- A placement for each node of each table, which all have to exist. -/
def everyNode (rule : Rule) (tables : List String) : Outcome Routing := do
  let placements ← tables.mapM fun t => do
    let r ← rule.table t
    pure (r.nodes.map fun n => Placement.mk (Renaming.same n.dataSource) [⟨t, n.table⟩])
  pure (ofPlacements placements.flatten)

/-- The placement in the default data source.  Without one only statements without tables of their
own, such as `SELECT 1`, have a placement. -/
def byDefault (rule : Rule) (tables : List String) : Outcome Routing :=
  match rule.defaultDataSource with
  | some source => .ok (ofPlacements [unchanged tables source])
  | none =>
      match tables.find? fun t => !rule.isBroadcast t with
      | some table => .error (Fault.tableNotFound table)
      | none => .ok (anywhere rule tables)

/-! ### By the kind of the statement -/

/-- The routing of the sharded tables of a statement on rows. -/
def ofSharded (rule : Rule) (tables : List String) (conditions : List Condition) :
    Outcome Routing :=
  if tables.length = 1 || rule.allBinding tables then ofBound rule tables conditions
  else ofJoined rule tables conditions

/-- The routing of a statement on rows. -/
def ofRows (rule : Rule) (readOnly : Bool) (tables : List String) (conditions : List Condition) :
    Outcome Routing :=
  let sharded := rule.shardedAmong tables
  if rule.allBroadcast tables then
    .ok (if readOnly then anywhere rule tables else everywhere rule tables)
  else if sharded.isEmpty then byDefault rule tables
  else ofSharded rule sharded conditions

/-- The routing of a definition of data, or of a grant. -/
def ofDefinition (rule : Rule) (tables : List String) : Outcome Routing :=
  let sharded := rule.shardedAmong tables
  if sharded.isEmpty then .ok (everywhere rule tables) else everyNode rule sharded

/-- The routing of the sharded tables, or of all tables when none is sharded. -/
def core (rule : Rule) (s : Statement) (conditions : List Condition) : Outcome Routing :=
  match s with
  | .ddl _ => ofDefinition rule s.tableNames
  | .dcl _ => ofDefinition rule s.tableNames
  | s => ofRows rule s.isReadOnly s.tableNames conditions

/-- Adds the tables that are not sharded to each placement, if others are. -/
def addUnsharded (rule : Rule) (tables : List String) (r : Routing) : Routing :=
  if (rule.shardedAmong tables).isEmpty then r
  else
    let unsharded := (tables.filter fun t => !rule.isSharded t).map Renaming.same
    { r with placements := r.placements.map fun p => p.withTables unsharded }

/-- The routing of a statement before replicas are looked at. -/
def ofTables (rule : Rule) (s : Statement) (conditions : List Condition) : Outcome Routing :=
  (core rule s conditions).map (addUnsharded rule s.tableNames)

/-! ### Replicas -/

/-- The physical data source of a group: the next replica for a read, and else the primary. -/
def physical (readOnly : Bool) (g : ReplicaGroup) : StateM Rule.Counters String :=
  if readOnly then Rule.readSource g else pure g.primary

/-- A placement in a physical data source. -/
def replicate (rule : Rule) (readOnly : Bool) (p : Placement) : StateM Rule.Counters Placement :=
  match rule.replicaGroup? p.source.logic with
  | none => pure p
  | some g => do
      let actual ← physical readOnly g
      pure { p with source := { p.source with actual := actual } }

/-- The routing with physical data sources.  A routing without placements is given one without
tables when there is a single group. -/
def withReplicas (rule : Rule) (readOnly : Bool) (r : Routing) : StateM Rule.Counters Routing :=
  match r.placements with
  | [] =>
      match rule.replicas with
      | [g] => do
          let actual ← physical readOnly g
          pure { r with placements := [⟨⟨g.name, actual⟩, []⟩] }
      | _ => pure r
  | placements => do
      let placements ← placements.mapM (replicate rule readOnly)
      pure { r with placements := placements }

theorem replicate_of_nil {rule : Rule} (h : rule.replicas = []) (readOnly : Bool)
    (p : Placement) : replicate rule readOnly p = pure p := by
  simp [replicate, Rule.replicaGroup?, h]

theorem mapM_replicate_of_nil {rule : Rule} (h : rule.replicas = []) (readOnly : Bool)
    (ps : List Placement) : ps.mapM (replicate rule readOnly) = pure ps := by
  induction ps with
  | nil => rfl
  | cons p rest ih => rw [List.mapM_cons, replicate_of_nil h, ih]; rfl

theorem withReplicas_of_nil {rule : Rule} (h : rule.replicas = []) (readOnly : Bool)
    (r : Routing) : withReplicas rule readOnly r = pure r := by
  obtain ⟨placements, rowNodes⟩ := r
  cases placements with
  | nil => simp [withReplicas, h]
  | cons p rest => simp only [withReplicas, mapM_replicate_of_nil h]; rfl

end Routing

/-! ### Statements -/

/-- A statement with what routing has found out. -/
structure Routed where
  sql : LogicalSql
  routing : Routing
  key : Option GeneratedKey
  deriving Repr, Inhabited

/-- The routing of a statement.  Keys are generated first, as they are part of the conditions. -/
def LogicalSql.route (sql : LogicalSql) (rule : Rule) : Rule.Counting Routed := do
  let (key, conditions) ← sql.conditions rule
  let routing ← liftM (m := Except Fault) (Routing.ofTables rule sql.statement conditions)
  let routing ← liftM (m := StateM Rule.Counters)
    (Routing.withReplicas rule sql.statement.isReadOnly routing)
  pure ⟨sql, routing, key⟩

end ShardedSql
