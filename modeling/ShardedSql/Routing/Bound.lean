/-
**Routing tables that are spread alike.**

One table leads: the first that the condition says something of, or else the first.  Its nodes are
those that the condition leaves, and where other tables are constrained too only those that all of
them share.  At each node the other tables are the ones that stand at the same place.

Main definitions:

* `ShardedSql.TableRule.nodesFor` — the nodes of one table that a condition leaves;
* `ShardedSql.Routing.leader` — the table that leads;
* `ShardedSql.Routing.sharedNodes` — the nodes of the leading table that the others share;
* `ShardedSql.Routing.ofBound` — the routing under the conditions of a statement.

Main results:

* `ShardedSql.Routing.ofBound_never` — **conditions that no row can meet lead nowhere**.
-/

import ShardedSql.Condition
import ShardedSql.Routing

set_option relaxedAutoImplicit false
set_option autoImplicit false

namespace ShardedSql

/-! ### One table -/

namespace TableRule

/-- What a condition says of a column of the table. -/
def constraint? (t : TableRule) (condition : Option Condition) (column : Option String) :
    Option Constraint :=
  match condition, column with
  | some c, some column => (c.find? t.logicTable column).map (·.constraint)
  | _, _ => none

/-- The nodes of the table that a condition leaves; without a condition all of them. -/
def nodesFor (t : TableRule) (condition : Option Condition) : Outcome (List DataNode) := do
  let sources ← t.database.targets t.dataSources t.logicTable
    (t.constraint? condition t.database.column?)
  let nodes ← sources.mapM fun source => do
    let tables ← t.table.targets (t.tablesIn source) t.logicTable
      (t.constraint? condition t.table.column?)
    pure (tables.map fun table => DataNode.mk source table)
  pure nodes.flatten

/-- The place of a node: its data source, and where its table stands among those there. -/
def place? (t : TableRule) (n : DataNode) : Option (String × Nat) :=
  (t.indexOf? n.dataSource n.table).map fun i => (n.dataSource, i)

end TableRule

namespace Routing

/-! ### Several tables -/

/-- The table that leads: the first that the condition says something of, or else the first. -/
def leader (first : String) (tables : List String) (condition : Option Condition) : String :=
  match condition with
  | none => first
  | some c => (tables.find? c.mentions).getD first

/-- The nodes of the leading table, without those at places where another table has none. -/
def narrow (rule : Rule) (condition : Condition) (leading : TableRule) (leader : String)
    (nodes : List DataNode) (other : String) : Outcome (List DataNode) := do
  let otherRule ← rule.table other
  let otherNodes ← otherRule.nodesFor (some condition)
  if nodes.isEmpty || otherNodes.isEmpty then pure nodes
  else
    let places := otherNodes.filterMap otherRule.place?
    let shared := nodes.filter fun n => (leading.place? n).any fun p => places.contains p
    if shared.isEmpty then
      throw ((Fault.algorithm "Binding tables routed to different shards")
        |>.note "table" leader |>.note "other_table" other)
    else pure shared

/-- The leading table, and its nodes at places that the other constrained tables share. -/
def sharedNodes (rule : Rule) (tables : List String) (condition : Option Condition) :
    Outcome (String × List DataNode) :=
  match tables with
  | [] => .error (Fault.internal "Standard routing requires at least one table")
  | first :: _ => do
      let leader := leader first tables condition
      let leading ← rule.table leader
      let nodes ← leading.nodesFor condition
      match condition with
      | none => pure (leader, nodes)
      | some c =>
          let others := tables.filter fun t => t ≠ leader && c.mentions t
          let nodes ← others.foldlM (narrow rule c leading leader) nodes
          pure (leader, nodes)

/-- The placement of all tables at a node of the leading one. -/
def placementAt (rule : Rule) (tables : List String) (leader : String) (n : DataNode) :
    Outcome Placement := do
  let renamings ← tables.mapM fun t =>
    if t = leader then pure (Renaming.mk t n.table)
    else do
      let actual ← rule.bindingActualTable n.dataSource t leader n.table
      pure (Renaming.mk t actual)
  pure ⟨Renaming.same n.dataSource, renamings⟩

/-- The nodes of the leading table under a condition, and the placements at them. -/
def underCondition (rule : Rule) (tables : List String) (condition : Option Condition) :
    Outcome (List DataNode × List Placement) := do
  let (leader, nodes) ← sharedNodes rule tables condition
  let placements ← nodes.mapM (placementAt rule tables leader)
  pure (nodes, placements)

/-- The nodes and placements of the row that a condition is about. -/
def ofRow (rule : Rule) (tables : List String) (c : Condition) :
    Outcome (List DataNode × List Placement) :=
  if c.alwaysFalse then .ok ([], []) else underCondition rule tables (some c)

/-- The routing of tables that are spread alike under the conditions of a statement. -/
def ofBound (rule : Rule) (tables : List String) (conditions : List Condition) :
    Outcome Routing :=
  if Condition.allFalse conditions then .ok {}
  else
    match conditions with
    | [] => do
        let (_, placements) ← underCondition rule tables none
        pure (ofPlacements placements)
    | conditions => do
        let rows ← conditions.mapM (ofRow rule tables)
        pure { ofPlacements (rows.flatMap (·.2)) with rowNodes := rows.map (·.1) }

theorem ofBound_never (rule : Rule) (tables : List String) {conditions : List Condition}
    (h : Condition.allFalse conditions = true) : ofBound rule tables conditions = .ok {} := by
  simp [ofBound, h]

end Routing

end ShardedSql
