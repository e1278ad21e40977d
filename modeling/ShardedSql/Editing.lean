/-
**Drafts: what is known while the edits of a statement are found.**

Edits are found by several editors, one after another.  A later one sees, and may extend, the edits
before it, and all of them change the parameters.

Main definitions:

* `ShardedSql.Draft` — the edits so far and the parameters;
* `ShardedSql.Editing` — computations on a draft that may fail;
* `ShardedSql.Editing.requireWhole`, `ShardedSql.Editing.requireGrouped` — the parameters of the
  kind that an editor needs.
-/

import ShardedSql.Binding
import ShardedSql.Edit
import ShardedSql.Routing.Statement

set_option relaxedAutoImplicit false
set_option autoImplicit false

namespace ShardedSql

/-- The edits so far and the parameters. -/
structure Draft where
  edits : List Edit := []
  binding : Binding
  deriving Repr, DecidableEq

namespace Draft

/-- The parameters of a routed statement.  The rows of an insertion are bound by themselves when
its table is sharded or has encrypted columns. -/
def startBinding (rule : Rule) (r : Routed) : Binding :=
  match r.sql.statement with
  | .insert i =>
      if i.set.isNone &&
          (rule.isSharded i.table.name || (rule.encrypt.columns? i.table.name).isSome) then
        .grouped (GroupedBinding.ofInsert i r.sql.parameters)
      else .whole (WholeBinding.ofValues r.sql.parameters)
  | _ => .whole (WholeBinding.ofValues r.sql.parameters)

/-- How the draft of a routed statement begins. -/
def start (rule : Rule) (r : Routed) : Draft := { binding := startBinding rule r }

@[simp] theorem start_edits (rule : Rule) (r : Routed) : (start rule r).edits = [] := rfl

end Draft

/-- Computations on a draft that may fail, and that keep what has changed even then. -/
abbrev Editing := ExceptT Fault (StateM Draft)

namespace Editing

/-- A step that may fail and leaves the draft alone. -/
def ofOutcome {α : Type} (x : Outcome α) : Editing α := liftM (m := Except Fault) x

/-- The parameters, which have to be the same for each placement. -/
def requireWhole (message : String) : Editing WholeBinding := do
  match (← get).binding with
  | .whole b => pure b
  | .grouped _ => throw (Fault.internal message)

/-- The parameters, which have to be bound row by row. -/
def requireGrouped (message : String) : Editing GroupedBinding := do
  match (← get).binding with
  | .grouped b => pure b
  | .whole _ => throw (Fault.internal message)

/-- Binds other parameters. -/
def bindWhole (b : WholeBinding) : Editing PUnit := modify fun d => { d with binding := .whole b }

/-- Binds other parameters row by row. -/
def bindGrouped (b : GroupedBinding) : Editing PUnit :=
  modify fun d => { d with binding := .grouped b }

end Editing

end ShardedSql
