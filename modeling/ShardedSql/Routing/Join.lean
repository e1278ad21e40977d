/-
**Routing tables that are not all spread alike.**

The tables are split into groups of tables that are spread alike.  Each group is routed by itself,
and the placements of the groups are joined on the data sources that all of them reach.

Main definitions:

* `ShardedSql.Routing.groups` — the groups of the tables of a statement;
* `ShardedSql.Routing.join` — the join of the routings of the groups;
* `ShardedSql.Routing.ofJoined` — the routing under the conditions of a statement.

Main results:

* `ShardedSql.Routing.join_of_nowhere` — **where one group leads nowhere the join does too**.
-/

import ShardedSql.Routing.Bound

set_option relaxedAutoImplicit false
set_option autoImplicit false

namespace ShardedSql

namespace Routing

/-! ### Groups -/

/-- The tables that are spread like a table. -/
def groupOf (rule : Rule) (tables : List String) (table : String) : List String :=
  match rule.bindingGroup? table with
  | some group => tables.filter fun t => group.contains (Text.lowercase t)
  | none => [table]

/-- Adds the group of a table to those before it, unless the table is in one of them. -/
def addGroup (rule : Rule) (tables : List String) (groups : List (List String))
    (table : String) : List (List String) :=
  if groups.any (Text.memName table) then groups else groups ++ [groupOf rule tables table]

/-- The groups of tables that are routed together, in the order of the statement. -/
def groups (rule : Rule) (tables : List String) : List (List String) :=
  tables.foldl (addGroup rule tables) []

/-! ### Joins -/

/-- The placements in a logical data source. -/
def placementsIn (r : Routing) (source : String) : List Placement :=
  r.placements.filter fun p => p.source.logic = source

/-- The logical data sources that the first routing and all others reach, each once. -/
def sharedSources (first : Routing) (all : List Routing) : List String :=
  ((first.placements.map (·.source.logic)).filter fun s =>
    all.all fun r => r.placements.any fun p => p.source.logic = s).eraseDups

/-- Every placement on the left with the tables of every one on the right. -/
def product (left right : List Placement) : List Placement :=
  left.flatMap fun l => right.map fun r => l.withTables r.tables

/-- The join of placements in one data source, group by group. -/
def joinIn (source : String) (first : Routing) (others : List Routing) : List Placement :=
  others.foldl (fun left r => product left (r.placementsIn source)) (first.placementsIn source)

/-- The join of the routings of groups on the data sources that all of them reach. -/
def join (routings : List Routing) (tables : List String) : Outcome Routing :=
  match routings with
  | [] => .ok {}
  | first :: others =>
      if routings.any fun r => r.placements.isEmpty then .ok {}
      else
        match sharedSources first routings with
        | [] =>
            .error ((Fault.unsupported
              "Cannot join sharded tables without a common data source").note "tables"
                (", ".intercalate tables))
        | sources => .ok (ofPlacements (sources.flatMap fun s => joinIn s first others))

/-- The routing of tables in several groups under the conditions of a statement. -/
def ofJoined (rule : Rule) (tables : List String) (conditions : List Condition) :
    Outcome Routing := do
  let routings ← (groups rule tables).mapM fun group => ofBound rule group conditions
  join routings tables

theorem join_of_nowhere {routings : List Routing} (tables : List String)
    (h : routings.any (fun r => r.placements.isEmpty) = true) :
    join routings tables = .ok {} := by
  cases routings with
  | nil => rfl
  | cons first others => simp only [join, h, if_true]

end Routing

end ShardedSql
