/-
**Rule configurations.**

A configuration only describes a rule; `ShardedSql/Rule/Build.lean` turns it into one.

Main definitions:

* `ShardedSql.ExtensionConfig` — the type of an algorithm, key generator or encryptor, with its
  properties;
* `ShardedSql.StrategyConfig`, `ShardedSql.KeyConfig`, `ShardedSql.TableConfig` — how one table is
  spread;
* `ShardedSql.EncryptConfig`, `ShardedSql.ReplicaConfig` — encrypted columns and groups of replicas;
* `ShardedSql.RuleConfig` — all of it;
* `ShardedSql.RuleConfig.ofDocument?`, `ShardedSql.RuleConfig.toDocument` — reading and writing.
-/

import ShardedSql.Dictionary
import ShardedSql.Document

set_option relaxedAutoImplicit false
set_option autoImplicit false

namespace ShardedSql

/-! ### The parts -/

/-- The properties of an algorithm, key generator or encryptor. -/
abbrev Properties := Dictionary String

/-- The type of an algorithm, key generator or encryptor, with its properties. -/
structure ExtensionConfig where
  type : String
  properties : Properties := {}
  deriving Repr, Inhabited, DecidableEq

/-- How the targets on one axis are chosen. -/
inductive StrategyConfig where
  /-- By the value of one column. -/
  | standard (column algorithm : String)
  /-- Not at all: every target. -/
  | none
  deriving Repr, Inhabited, DecidableEq

/-- A column that is filled in by a key generator. -/
structure KeyConfig where
  column : String
  generator : String
  deriving Repr, Inhabited, DecidableEq

/-- How one table is spread. -/
structure TableConfig where
  logicTable : String
  /-- An expression for the nodes; without one the table is on every configured data source. -/
  nodes : Option String := none
  databaseStrategy : Option StrategyConfig := none
  tableStrategy : Option StrategyConfig := none
  key : Option KeyConfig := none
  deriving Repr, Inhabited, DecidableEq

/-- How one column is encrypted. -/
structure EncryptColumnConfig where
  logicColumn : String
  cipherColumn : String
  assistedColumn : Option String := none
  plainColumn : Option String := none
  encryptor : String
  assistedEncryptor : Option String := none
  deriving Repr, Inhabited, DecidableEq

/-- The encrypted columns of one table. -/
structure EncryptTableConfig where
  table : String
  columns : List EncryptColumnConfig
  deriving Repr, Inhabited, DecidableEq

/-- The encrypted columns of all tables. -/
structure EncryptConfig where
  encryptors : Dictionary ExtensionConfig := {}
  tables : List EncryptTableConfig := []
  deriving Repr, Inhabited, DecidableEq

/-- A logical data source that is a primary with replicas. -/
structure ReplicaConfig where
  name : String
  primary : String
  replicas : List String
  balancer : Option String := none
  deriving Repr, Inhabited, DecidableEq

/-- A whole rule. -/
structure RuleConfig where
  dataSources : List String := []
  tables : List TableConfig := []
  bindingTables : List (List String) := []
  broadcastTables : List String := []
  defaultDataSource : Option String := none
  defaultDatabaseStrategy : Option StrategyConfig := none
  defaultTableStrategy : Option StrategyConfig := none
  defaultKey : Option KeyConfig := none
  algorithms : Dictionary ExtensionConfig := {}
  keyGenerators : Dictionary ExtensionConfig := {}
  encrypt : Option EncryptConfig := none
  replicas : List ReplicaConfig := []
  deriving Repr, Inhabited, DecidableEq

/-! ### Reading -/

open Document

/-- Reads a dictionary of what `read` finds in each field. -/
def Dictionary.ofDocument? {α : Type} (read : Document → Option α) (d : Document) :
    Option (Dictionary α) :=
  (d.fieldsOf? read).map Dictionary.ofList

/-- Reads the type and the properties of an extension. -/
def ExtensionConfig.ofDocument? (d : Document) : Option ExtensionConfig := do
  match ← d.contents? ["type", "props"] with
  | [type, props] =>
      some {
        type := ← required? text? type
        properties := ← defaulted? {} (Dictionary.ofDocument? text?) props }
  | _ => none

/-- Reads a strategy, whose field `kind` says which it is. -/
def StrategyConfig.ofDocument? (d : Document) : Option StrategyConfig :=
  match d with
  | .list [.text "none"] => some .none
  | .list [.text "standard", .text column, .text algorithm] => some (.standard column algorithm)
  | .record _ =>
      match d.field? "kind" with
      | some (.text "none") => some .none
      | some (.text "standard") => do
          some (.standard (← required? text? (d.field? "sharding_column"))
            (← required? text? (d.field? "algorithm_name")))
      | _ => Option.none
  | _ => Option.none

/-- Reads a key column. -/
def KeyConfig.ofDocument? (d : Document) : Option KeyConfig := do
  match ← d.contents? ["column", "key_generator_name"] with
  | [column, generator] =>
      some { column := ← required? text? column, generator := ← required? text? generator }
  | _ => none

/-- Reads how one table is spread. -/
def TableConfig.ofDocument? (d : Document) : Option TableConfig := do
  let names :=
    ["logic_table", "actual_data_nodes", "database_strategy", "table_strategy", "key_generate"]
  match ← d.contents? names with
  | [table, nodes, database, strategy, key] =>
      some {
        logicTable := ← required? text? table
        nodes := ← defaulted? none (optional? text?) nodes
        databaseStrategy := ← defaulted? none (optional? StrategyConfig.ofDocument?) database
        tableStrategy := ← defaulted? none (optional? StrategyConfig.ofDocument?) strategy
        key := ← defaulted? none (optional? KeyConfig.ofDocument?) key }
  | _ => none

/-- Reads how one column is encrypted. -/
def EncryptColumnConfig.ofDocument? (d : Document) : Option EncryptColumnConfig := do
  let names :=
    ["logic_column", "cipher_column", "assisted_query_column", "plain_column", "encryptor_name",
      "assisted_query_encryptor_name"]
  match ← d.contents? names with
  | [logic, cipher, assisted, plain, encryptor, assistedEncryptor] =>
      some {
        logicColumn := ← required? text? logic
        cipherColumn := ← required? text? cipher
        assistedColumn := ← defaulted? none (optional? text?) assisted
        plainColumn := ← defaulted? none (optional? text?) plain
        encryptor := ← required? text? encryptor
        assistedEncryptor := ← defaulted? none (optional? text?) assistedEncryptor }
  | _ => none

/-- Reads the encrypted columns of one table. -/
def EncryptTableConfig.ofDocument? (d : Document) : Option EncryptTableConfig := do
  match ← d.contents? ["table", "columns"] with
  | [table, columns] =>
      some {
        table := ← required? text? table
        columns := ← required? (listOf? EncryptColumnConfig.ofDocument?) columns }
  | _ => none

/-- Reads the encrypted columns of all tables. -/
def EncryptConfig.ofDocument? (d : Document) : Option EncryptConfig := do
  match ← d.contents? ["encryptors", "tables"] with
  | [encryptors, tables] =>
      some {
        encryptors :=
          ← defaulted? {} (Dictionary.ofDocument? ExtensionConfig.ofDocument?) encryptors
        tables := ← defaulted? [] (listOf? EncryptTableConfig.ofDocument?) tables }
  | _ => none

/-- Reads a primary with its replicas. -/
def ReplicaConfig.ofDocument? (d : Document) : Option ReplicaConfig := do
  match ← d.contents? ["name", "primary_data_source", "replica_data_sources", "load_balancer"] with
  | [name, primary, replicas, balancer] =>
      some {
        name := ← required? text? name
        primary := ← required? text? primary
        replicas := ← required? strings? replicas
        balancer := ← defaulted? none (optional? text?) balancer }
  | _ => none

/-- The names of the fields of a rule. -/
def RuleConfig.fieldNames : List String :=
  ["data_sources", "tables", "binding_tables", "broadcast_tables", "default_data_source",
    "default_database_strategy", "default_table_strategy", "default_key_generate",
    "sharding_algorithms", "key_generators", "encrypt", "primary_replica"]

/-- Reads a rule. -/
def RuleConfig.ofDocument? (d : Document) : Option RuleConfig := do
  match ← d.contents? RuleConfig.fieldNames with
  | [sources, tables, binding, broadcast, source, database, table, key, algorithms, generators,
      encrypt, replicas] =>
      some {
        dataSources := ← defaulted? [] strings? sources
        tables := ← defaulted? [] (listOf? TableConfig.ofDocument?) tables
        bindingTables := ← defaulted? [] (listOf? strings?) binding
        broadcastTables := ← defaulted? [] strings? broadcast
        defaultDataSource := ← defaulted? none (optional? text?) source
        defaultDatabaseStrategy :=
          ← defaulted? none (optional? StrategyConfig.ofDocument?) database
        defaultTableStrategy := ← defaulted? none (optional? StrategyConfig.ofDocument?) table
        defaultKey := ← defaulted? none (optional? KeyConfig.ofDocument?) key
        algorithms :=
          ← defaulted? {} (Dictionary.ofDocument? ExtensionConfig.ofDocument?) algorithms
        keyGenerators :=
          ← defaulted? {} (Dictionary.ofDocument? ExtensionConfig.ofDocument?) generators
        encrypt := ← defaulted? none (optional? EncryptConfig.ofDocument?) encrypt
        replicas := ← defaulted? [] (listOf? ReplicaConfig.ofDocument?) replicas }
  | _ => none

/-! ### Writing -/

/-- Writes a dictionary. -/
def Dictionary.toDocument {α : Type} (write : α → Document) (d : Dictionary α) : Document :=
  .record (d.entries.map fun kv => (kv.1, write kv.2))

/-- Writes the type and the properties of an extension. -/
def ExtensionConfig.toDocument (c : ExtensionConfig) : Document :=
  .record [("type", .text c.type), ("props", c.properties.toDocument .text)]

/-- Writes a strategy. -/
def StrategyConfig.toDocument : StrategyConfig → Document
  | .none => .record [("kind", .text "none")]
  | .standard column algorithm =>
      .record [("kind", .text "standard"), ("sharding_column", .text column),
        ("algorithm_name", .text algorithm)]

/-- Writes a key column. -/
def KeyConfig.toDocument (c : KeyConfig) : Document :=
  .record [("column", .text c.column), ("key_generator_name", .text c.generator)]

/-- Writes how one table is spread. -/
def TableConfig.toDocument (c : TableConfig) : Document :=
  .record [("logic_table", .text c.logicTable), ("actual_data_nodes", ofOption .text c.nodes),
    ("database_strategy", ofOption StrategyConfig.toDocument c.databaseStrategy),
    ("table_strategy", ofOption StrategyConfig.toDocument c.tableStrategy),
    ("key_generate", ofOption KeyConfig.toDocument c.key)]

/-- Writes how one column is encrypted. -/
def EncryptColumnConfig.toDocument (c : EncryptColumnConfig) : Document :=
  .record [("logic_column", .text c.logicColumn), ("cipher_column", .text c.cipherColumn),
    ("assisted_query_column", ofOption .text c.assistedColumn),
    ("plain_column", ofOption .text c.plainColumn), ("encryptor_name", .text c.encryptor),
    ("assisted_query_encryptor_name", ofOption .text c.assistedEncryptor)]

/-- Writes the encrypted columns of one table. -/
def EncryptTableConfig.toDocument (c : EncryptTableConfig) : Document :=
  .record [("table", .text c.table), ("columns", .list (c.columns.map (·.toDocument)))]

/-- Writes the encrypted columns of all tables. -/
def EncryptConfig.toDocument (c : EncryptConfig) : Document :=
  .record [("encryptors", c.encryptors.toDocument ExtensionConfig.toDocument),
    ("tables", .list (c.tables.map (·.toDocument)))]

/-- Writes a primary with its replicas. -/
def ReplicaConfig.toDocument (c : ReplicaConfig) : Document :=
  .record [("name", .text c.name), ("primary_data_source", .text c.primary),
    ("replica_data_sources", ofTexts c.replicas), ("load_balancer", ofOption .text c.balancer)]

/-- Writes a rule, every field included. -/
def RuleConfig.toDocument (c : RuleConfig) : Document :=
  .record [("data_sources", ofTexts c.dataSources),
    ("tables", .list (c.tables.map (·.toDocument))),
    ("binding_tables", .list (c.bindingTables.map ofTexts)),
    ("broadcast_tables", ofTexts c.broadcastTables),
    ("default_data_source", ofOption .text c.defaultDataSource),
    ("default_database_strategy", ofOption StrategyConfig.toDocument c.defaultDatabaseStrategy),
    ("default_table_strategy", ofOption StrategyConfig.toDocument c.defaultTableStrategy),
    ("default_key_generate", ofOption KeyConfig.toDocument c.defaultKey),
    ("sharding_algorithms", c.algorithms.toDocument ExtensionConfig.toDocument),
    ("key_generators", c.keyGenerators.toDocument ExtensionConfig.toDocument),
    ("encrypt", ofOption EncryptConfig.toDocument c.encrypt),
    ("primary_replica", .list (c.replicas.map (·.toDocument)))]

end ShardedSql
