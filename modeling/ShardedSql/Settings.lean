/-
**Settings of the kernel, by name.**

Main definitions:

* `ShardedSql.Settings` — the three settings;
* `ShardedSql.Setting` — their names, each with its description;
* `ShardedSql.Settings.set`, `ShardedSql.Settings.get`, `ShardedSql.Settings.reset` — writing and
  reading them as text;
* `ShardedSql.Settings.ofPairs` — settings from names and texts.

Main results:

* `ShardedSql.Setting.ofName?_name` — **a setting is found under its name**.
-/

import ShardedSql.Algorithm

set_option relaxedAutoImplicit false
set_option autoImplicit false

namespace ShardedSql

/-- The settings of the kernel. -/
structure Settings where
  /-- Whether the logical statement and the physical ones are logged. -/
  sqlShow : Bool := false
  /-- Whether only a summary of the physical statements is logged. -/
  sqlSimple : Bool := false
  /-- How many connections one query may hold for a data source. -/
  maxConnections : Nat := 1
  deriving Repr, DecidableEq, Inhabited

/-- A setting. -/
inductive Setting where
  | maxConnections
  | sqlShow
  | sqlSimple
  deriving Repr, DecidableEq

namespace Setting

/-- The settings in the order of their names. -/
def all : List Setting := [.maxConnections, .sqlShow, .sqlSimple]

/-- The name of a setting. -/
def name : Setting → String
  | .sqlShow => "sql_show"
  | .sqlSimple => "sql_simple"
  | .maxConnections => "max_connections_size_per_query"

/-- What a setting does. -/
def description : Setting → String
  | .sqlShow => "Log the logical SQL and every rewritten actual SQL"
  | .sqlSimple => "Log a summary of actual SQL instead of every statement"
  | .maxConnections =>
      "Max number of connections one logical query may open against a single data source"

/-- The setting with a name. -/
def ofName? (s : String) : Option Setting := all.find? fun x => x.name = s

@[simp] theorem ofName?_name (x : Setting) : ofName? x.name = some x := by
  cases x <;> decide

/-- The setting with a name, which has to exist. -/
def ofName (s : String) : Outcome Setting :=
  match ofName? s with
  | some x => .ok x
  | none => .error (Fault.config ("Missing setting for '" ++ s ++ "'"))

/-- Reads a truth value. -/
def readBool (x : Setting) (s : String) : Outcome Bool :=
  let word := Text.foldCase (Text.trim s)
  if word = "true" ∨ word = "on" ∨ word = "1" then .ok true
  else if word = "false" ∨ word = "off" ∨ word = "0" then .ok false
  else
    .error ((Fault.config "Invalid boolean setting value")
      |>.note "setting" x.name |>.note "value" s)

end Setting

namespace Settings

/-- The settings with one of them written. -/
def write (c : Settings) (x : Setting) (s : String) : Outcome Settings :=
  match x with
  | .sqlShow => (x.readBool s).map fun b => { c with sqlShow := b }
  | .sqlSimple => (x.readBool s).map fun b => { c with sqlSimple := b }
  | .maxConnections => do
      let n ← AlgorithmType.readUnsigned s
      if n = 0 then
        throw ((Fault.config "Setting must be greater than zero").note "setting" x.name)
      pure { c with maxConnections := n }

/-- The text of a setting. -/
def read (c : Settings) : Setting → String
  | .sqlShow => Value.boolText c.sqlShow
  | .sqlSimple => Value.boolText c.sqlSimple
  | .maxConnections => toString c.maxConnections

/-- Writes a setting by its name. -/
def set (c : Settings) (name value : String) : Outcome Settings := do
  c.write (← Setting.ofName name) value

/-- The text of a setting by its name. -/
def get (c : Settings) (name : String) : Outcome String := do
  pure (c.read (← Setting.ofName name))

/-- Gives a setting the value it begins with. -/
def reset (c : Settings) (name : String) : Outcome Settings := do
  let x ← Setting.ofName name
  c.write x (({} : Settings).read x)

/-- The settings that names and texts make, one after another. -/
def ofPairs (pairs : List (String × String)) : Outcome Settings :=
  pairs.foldlM (fun c kv => c.set kv.1 kv.2) {}

end Settings

end ShardedSql
