/-
**Sharding rules.**

A rule says where logical tables are and how they are spread.  Tables are found by their name in
lower case.

Main definitions:

* `ShardedSql.Rule` — the tables, binding groups, broadcast tables, data sources, encrypted columns
  and groups of replicas;
* `ShardedSql.Rule.table?`, `ShardedSql.Rule.table` — the rule of a logical table;
* `ShardedSql.Rule.bindingActualTable` — the actual table of one table that stands where a given
  one of another table stands;
* `ShardedSql.Rule.Counters` — what changes while a rule is used: generators of keys, turns of
  replicas and what is read from outside.

Main results:

* `ShardedSql.Rule.isSharded_iff` — a table is sharded exactly when it has a rule.
-/

import ShardedSql.Rule.Table
import ShardedSql.Rule.Encrypt
import ShardedSql.KeyGenerator
import ShardedSql.Replica

set_option relaxedAutoImplicit false
set_option autoImplicit false

namespace ShardedSql

/-- A whole rule. -/
structure Rule where
  /-- The rules of the logical tables by the name in lower case, in configured order. -/
  tables : List (String × TableRule)
  /-- The names in lower case of tables that are spread alike. -/
  bindingGroups : List (List String)
  /-- The names in lower case of the tables that are on every data source. -/
  broadcastTables : List String
  /-- All logical data sources. -/
  dataSources : List String
  /-- Where tables without a rule are. -/
  defaultDataSource : Option String
  /-- The encrypted columns. -/
  encrypt : EncryptRule
  /-- The data sources that have replicas. -/
  replicas : List ReplicaGroup
  /-- The key generators by name, as they begin. -/
  generators : Dictionary KeyGenerator
  deriving Repr

deriving noncomputable instance DecidableEq for Rule

namespace Rule

/-! ### Tables -/

/-- The rule of a logical table. -/
def table? (r : Rule) (logic : String) : Option TableRule := r.tables.lookup (Text.lowercase logic)

/-- The rule of a logical table, which has to exist. -/
def table (r : Rule) (logic : String) : Outcome TableRule :=
  match r.table? logic with
  | some t => .ok t
  | none => .error (Fault.tableNotFound logic)

/-- The first rule that has an actual table. -/
def tableByActual? (r : Rule) (actual : String) : Option TableRule :=
  (r.tables.map Prod.snd).find? fun t => t.hasActual actual

/-- The table has a rule. -/
def isSharded (r : Rule) (logic : String) : Bool := (r.table? logic).isSome

theorem isSharded_iff (r : Rule) (logic : String) :
    r.isSharded logic = true ↔ ∃ t, r.table? logic = some t := by
  simp [isSharded, Option.isSome_iff_exists]

/-- The table is on every data source. -/
def isBroadcast (r : Rule) (logic : String) : Bool :=
  r.broadcastTables.contains (Text.lowercase logic)

/-- There are tables, and all of them are on every data source. -/
def allBroadcast (r : Rule) (tables : List String) : Bool :=
  !tables.isEmpty && tables.all r.isBroadcast

/-- The tables that have a rule. -/
def shardedAmong (r : Rule) (tables : List String) : List String := tables.filter r.isSharded

/-! ### Binding groups -/

/-- The first group of tables that are spread like a table. -/
def bindingGroup? (r : Rule) (logic : String) : Option (List String) :=
  r.bindingGroups.find? fun g => g.contains (Text.lowercase logic)

/-- There are tables, and all of them are spread alike. -/
def allBinding (r : Rule) (tables : List String) : Bool :=
  match tables with
  | [] => false
  | first :: _ =>
      match r.bindingGroup? first with
      | none => false
      | some group => tables.all fun t => group.contains (Text.lowercase t)

/-- The actual table of `logic` that stands among those of a data source where `actual` stands
among those of `other`. -/
def bindingActualTable (r : Rule) (dataSource logic other actual : String) : Outcome String := do
  let otherRule ← r.table other
  match otherRule.indexOf? dataSource actual with
  | none =>
      throw ((Fault.algorithm "Actual table not found for binding table")
        |>.note "data_source" dataSource |>.note "table" actual)
  | some i =>
      let rule ← r.table logic
      match (rule.tablesIn dataSource)[i]? with
      | some t => pure t
      | none =>
          throw ((Fault.algorithm "Binding tables have different numbers of actual tables")
            |>.note "table" logic |>.note "other_table" other |>.note "data_source" dataSource)

/-! ### Columns -/

/-- The table is spread by the column. -/
def isShardingColumn (r : Rule) (column logic : String) : Bool :=
  (r.table? logic).any fun t => t.isShardingColumn column

/-- The column of a table that is filled in. -/
def keyColumn? (r : Rule) (logic : String) : Option String :=
  ((r.table? logic).bind (·.key)).map (·.column)

/-- The group of replicas that a data source is. -/
def replicaGroup? (r : Rule) (name : String) : Option ReplicaGroup :=
  r.replicas.find? fun g => g.name = name

/-! ### What changes -/

/-- What changes while a rule is used. -/
structure Counters where
  /-- The generators by name, as they are now. -/
  generators : Dictionary KeyGenerator
  /-- The turn of each group of replicas. -/
  turns : Dictionary UInt64 := {}
  /-- The clock that time-ordered keys are made by, and the random numbers. -/
  readings : Readings
  deriving Repr, DecidableEq

/-- Computations that may fail, and that keep what has changed even then. -/
abbrev Counting := ExceptT Fault (StateM Counters)

/-- How a rule begins.  Its clock stands just after the epoch and every reading moves it on. -/
def start (r : Rule) : Counters :=
  { generators := r.generators, readings := { clock := ⟨[], Snowflake.epoch⟩ } }

/-- The next key of the generator with a name. -/
def nextKey (name : String) : Counting Value := do
  let s ← get
  match s.generators.get? name with
  | none => throw ((Fault.config "Missing key generator").note "key_generator" name)
  | some g =>
      let (key, g, readings) := g.next s.readings
      set { s with generators := s.generators.insert name g, readings := readings }
      liftM (m := Except Fault) key

/-- The next `n` keys of the generator with a name. -/
def nextKeys (name : String) : Nat → Counting (List Value)
  | 0 => pure []
  | n + 1 => do
      let key ← nextKey name
      let rest ← nextKeys name n
      pure (key :: rest)

/-- The next `n` keys for a table. -/
def generateKeys (r : Rule) (logic : String) (n : Nat) : Counting (List Value) := do
  let t ← liftM (m := Except Fault) (r.table logic)
  match t.key with
  | none => throw ((Fault.config "Table has no key generator").note "table" logic)
  | some key => nextKeys key.generator n

/-- The data source of the next read from a group of replicas. -/
def readSource (g : ReplicaGroup) : StateM Counters String := do
  let s ← get
  let (source, turn, draws) := g.readSource ((s.turns.get? g.name).getD 0) s.readings.draws
  set { s with
    turns := s.turns.insert g.name turn
    readings := { s.readings with draws := draws } }
  pure source

end Rule

end ShardedSql
