/-
**Physical statements: what is sent to the data sources.**

Main definitions:

* `ShardedSql.PhysicalSql` — a text with parameters for one data source;
* `ShardedSql.Routed.physicalBy` — the physical statements of a routed one, by some editors;
* `ShardedSql.Routed.physical` — the same, by all editors.
-/

import ShardedSql.Edit.Splice
import ShardedSql.Editor

set_option relaxedAutoImplicit false
set_option autoImplicit false

namespace ShardedSql

/-- A text with parameters for one data source. -/
structure PhysicalSql where
  /-- The actual data source. -/
  dataSource : String
  text : String
  parameters : List Value
  deriving Repr, DecidableEq, Inhabited

namespace PhysicalSql

/-- The statement as it is shown to a user. -/
def render (p : PhysicalSql) : String :=
  p.dataSource ++ " ::: " ++ p.text ++
    if p.parameters.isEmpty then ""
    else " ::: [" ++ ", ".intercalate (p.parameters.map Value.render) ++ "]"

/-- The data sources of some statements, each once. -/
def dataSources (statements : List PhysicalSql) : List String :=
  (statements.map (·.dataSource)).eraseDups

end PhysicalSql

/-- The physical statements of a routed one, by some editors. -/
def Routed.physicalBy (r : Routed) (rule : Rule) (editors : List Editor) :
    Outcome (List PhysicalSql) := do
  let (outcome, draft) := (Editor.runAll rule r editors).run.run (Draft.start rule r)
  outcome
  let splice ← Splice.ofEdits r.sql.text draft.edits
  r.routing.placements.mapM fun p => do
    let text ← splice.render (some p)
    pure ⟨p.source.actual, text, draft.binding.parameters p r.routing⟩

/-- The physical statements of a routed one. -/
def Routed.physical (r : Routed) (rule : Rule) : Outcome (List PhysicalSql) :=
  r.physicalBy rule Editor.all

end ShardedSql
