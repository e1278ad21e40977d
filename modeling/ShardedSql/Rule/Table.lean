/-
**The rule of one logical table.**

Main definitions:

* `ShardedSql.TableRule` — the nodes of a table, its strategies for data sources and for tables,
  and its key column;
* `ShardedSql.TableRule.dataSources`, `ShardedSql.TableRule.tablesIn` — what the nodes consist of;
* `ShardedSql.TableRule.indexOf?` — the place of an actual table among those of a data source.

Main results:

* `ShardedSql.TableRule.mem_tablesIn` — **an actual table is in a data source exactly when the pair
  is a node**.
-/

import ShardedSql.DataNode
import ShardedSql.Strategy
import ShardedSql.Text.Ascii

set_option relaxedAutoImplicit false
set_option autoImplicit false

namespace ShardedSql

/-- A column that is filled in by a generator, which tables may share. -/
structure KeyColumn where
  column : String
  /-- The name of the generator. -/
  generator : String
  deriving Repr, DecidableEq

/-- The rule of one logical table. -/
structure TableRule where
  logicTable : String
  /-- Where the table is, in configured order. -/
  nodes : List DataNode
  /-- How data sources are chosen. -/
  database : Strategy
  /-- How the actual tables of a data source are chosen. -/
  table : Strategy
  /-- The column that is filled in. -/
  key : Option KeyColumn
  deriving Repr, DecidableEq

namespace TableRule

/-- The data sources of the nodes, each once. -/
def dataSources (r : TableRule) : List String := (r.nodes.map (·.dataSource)).eraseDups

/-- The actual tables in a data source. -/
def tablesIn (r : TableRule) (dataSource : String) : List String :=
  (r.nodes.filter fun n => n.dataSource = dataSource).map (·.table)

@[simp] theorem mem_tablesIn (r : TableRule) (dataSource table : String) :
    table ∈ r.tablesIn dataSource ↔ ⟨dataSource, table⟩ ∈ r.nodes := by
  simp only [tablesIn, List.mem_map, List.mem_filter, decide_eq_true_eq]
  constructor
  · rintro ⟨n, ⟨hn, hs⟩, ht⟩
    cases n
    cases hs
    cases ht
    exact hn
  · exact fun h => ⟨_, ⟨h, rfl⟩, rfl⟩

/-- The place of an actual table among those of a data source. -/
def indexOf? (r : TableRule) (dataSource table : String) : Option Nat :=
  (r.tablesIn dataSource).findIdx? fun t => Text.sameName t table

/-- Whether some node has an actual table. -/
def hasActual (r : TableRule) (table : String) : Bool :=
  r.nodes.any fun n => Text.sameName n.table table

/-- The columns by which the table is spread. -/
def shardingColumns (r : TableRule) : List String :=
  r.database.column?.toList ++ r.table.column?.toList

/-- Whether the table is spread by a column. -/
def isShardingColumn (r : TableRule) (column : String) : Bool :=
  r.shardingColumns.any fun c => Text.sameName c column

end TableRule

end ShardedSql
