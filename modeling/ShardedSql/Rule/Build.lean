/-
**Rules from their configurations.**

The parts are built in a fixed order, and the first that cannot be built is the fault: algorithms
and key generators in the order of their names, the default strategies, the tables with their
nodes, the binding groups, the encrypted columns and the groups of replicas.

Main definitions:

* `ShardedSql.Rule.Builder` — the algorithms and generators that tables refer to by name;
* `ShardedSql.Rule.Builder.table` — the rule of one table;
* `ShardedSql.EncryptRule.ofConfig`, `ShardedSql.ReplicaGroup.ofConfigs` — the other parts;
* `ShardedSql.Rule.ofConfig` — the rule of a configuration.
-/

import ShardedSql.Inline
import ShardedSql.Registry
import ShardedSql.Rule

set_option relaxedAutoImplicit false
set_option autoImplicit false

namespace ShardedSql

/-! ### Encrypted columns -/

namespace EncryptRule

/-- The encryptor with a name. -/
def encryptorNamed (encryptors : List (String × Encryptor)) (name : String) : Outcome Encryptor :=
  match encryptors.lookup name with
  | some e => .ok e
  | none => .error ((Fault.config "Missing encryptor").note "encryptor" name)

/-- The encrypted column of a configuration. -/
def columnOf (encryptors : List (String × Encryptor)) (c : EncryptColumnConfig) :
    Outcome EncryptColumn := do
  let encryptor ← encryptorNamed encryptors c.encryptor
  let assisted ← c.assistedEncryptor.mapM (encryptorNamed encryptors)
  pure {
    logicColumn := c.logicColumn
    cipherColumn := c.cipherColumn
    assistedColumn := c.assistedColumn
    plainColumn := c.plainColumn
    encryptor := encryptor
    assistedEncryptor := assisted }

/-- The encrypted columns of a configuration.  Of two tables with one name the later counts. -/
def ofConfig (registry : Registry) (c : EncryptConfig) : Outcome EncryptRule := do
  let encryptors ← c.encryptors.entries.mapM fun kv => do
    pure (kv.1, ← registry.encryptor kv.2)
  let tables ← c.tables.mapM fun t => do
    pure (Text.lowercase t.table, ← t.columns.mapM (columnOf encryptors))
  pure ⟨.ofList tables⟩

end EncryptRule

/-! ### Replicas -/

/-- The groups of some configurations after those in `groups`, which have other names. -/
def ReplicaGroup.ofConfigs (registry : Registry) (groups : List ReplicaGroup) :
    List ReplicaConfig → Outcome (List ReplicaGroup)
  | [] => .ok groups
  | c :: rest => do
      if groups.any fun g => g.name = c.name then
        throw ((Fault.config "Duplicate primary replica group").note "group" c.name)
      let balancer ← registry.balancer (c.balancer.getD Balancer.roundRobin.name)
      ofConfigs registry (groups ++ [⟨c.name, c.primary, c.replicas, balancer⟩]) rest

/-! ### Tables -/

namespace Rule

/-- The algorithms and generators that tables refer to by name, and what tables have by default. -/
structure Builder where
  algorithms : List (String × Algorithm)
  generators : List (String × KeyGenerator)
  defaultKey : Option KeyConfig

namespace Builder

/-- The strategy of a configuration. -/
def strategy (b : Builder) : StrategyConfig → Outcome Strategy
  | .none => .ok .none
  | .standard column name =>
      if (Text.trimChars column.toList).isEmpty then
        .error ((Fault.config "Sharding column cannot be empty").note "algorithm" name)
      else
        match b.algorithms.lookup name with
        | some a => .ok (.standard column a)
        | none => .error ((Fault.config "Missing sharding algorithm").note "algorithm" name)

/-- The strategy of a configuration, when there is one. -/
def strategyOr (b : Builder) (default : Strategy) : Option StrategyConfig → Outcome Strategy
  | none => .ok default
  | some c => b.strategy c

/-- The key column of a table. -/
def key (b : Builder) (c : Option KeyConfig) : Outcome (Option KeyColumn) :=
  match c <|> b.defaultKey with
  | none => .ok none
  | some c =>
      if (b.generators.lookup c.generator).isSome then .ok (some ⟨c.column, c.generator⟩)
      else .error ((Fault.config "Missing key generator").note "key_generator" c.generator)

/-- The nodes of a table. -/
def nodes (dataSources : List String) (c : TableConfig) : Outcome (List DataNode) :=
  match c.nodes with
  | some expression => do (← Inline.expand expression).mapM DataNode.parse
  | none => .ok (dataSources.map fun ds => ⟨ds, c.logicTable⟩)

/-- The rule of a table. -/
def table (b : Builder) (dataSources : List String) (database table : Strategy)
    (c : TableConfig) : Outcome TableRule := do
  let nodes ← nodes dataSources c
  if nodes.isEmpty then
    throw ((Fault.config "Table rule has no actual data nodes").note "table" c.logicTable)
  let database ← (b.strategyOr database c.databaseStrategy).note "table" c.logicTable
  let table ← (b.strategyOr table c.tableStrategy).note "table" c.logicTable
  let key ← (b.key c.key).note "table" c.logicTable
  pure ⟨c.logicTable, nodes, database, table, key⟩

/-- The rules of tables after those in `done`, which have other names. -/
def tables (b : Builder) (dataSources : List String) (database strategy : Strategy)
    (done : List (String × TableRule)) : List TableConfig → Outcome (List (String × TableRule))
  | [] => .ok done
  | c :: rest => do
      let t ← b.table dataSources database strategy c
      let name := Text.lowercase c.logicTable
      if (done.lookup name).isSome then
        throw ((Fault.config "Duplicate table rule").note "table" c.logicTable)
      tables b dataSources database strategy (done ++ [(name, t)]) rest

end Builder

/-! ### Rules -/

/-- A binding group, all of whose tables have to have rules. -/
def bindingGroupOf (tables : List (String × TableRule)) (group : List String) :
    Outcome (List String) :=
  (group.map Text.lowercase).mapM fun t =>
    if (tables.lookup t).isSome then .ok t
    else .error ((Fault.config "Binding table has no table rule").note "table" t)

/-- The rule of a configuration. -/
def ofConfig (registry : Registry) (c : RuleConfig) : Outcome Rule := do
  let algorithms ← c.algorithms.entries.mapM fun kv => do
    pure (kv.1, ← (registry.algorithm kv.2).note "algorithm" kv.1)
  let generators ← c.keyGenerators.entries.mapM fun kv => do
    pure (kv.1, ← (registry.keyGenerator kv.2).note "key_generator" kv.1)
  let b : Builder := ⟨algorithms, generators, c.defaultKey⟩
  let database ← b.strategyOr .none c.defaultDatabaseStrategy
  let table ← b.strategyOr .none c.defaultTableStrategy
  let tables ← b.tables c.dataSources database table [] c.tables
  let nodeSources := (tables.map fun t => t.2.nodes.map (·.dataSource)).flatten
  let bindingGroups ← c.bindingTables.mapM (bindingGroupOf tables)
  let encrypt ← EncryptRule.ofConfig registry (c.encrypt.getD {})
  let replicas ← ReplicaGroup.ofConfigs registry [] c.replicas
  pure {
    tables := tables
    bindingGroups := bindingGroups
    broadcastTables := c.broadcastTables.map Text.lowercase
    dataSources := (c.dataSources ++ nodeSources ++ c.defaultDataSource.toList).eraseDups
    defaultDataSource := c.defaultDataSource
    encrypt := encrypt
    replicas := replicas
    generators := ⟨generators⟩ }

end Rule

end ShardedSql
