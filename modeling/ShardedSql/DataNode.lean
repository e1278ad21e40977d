/-
**Data nodes: an actual table in a data source.**

Main definitions:

* `ShardedSql.DataNode` — the pair;
* `ShardedSql.DataNode.parse` — reading `source.table`;
* `ShardedSql.DataNode.render` — writing it.
-/

import ShardedSql.Fault
import ShardedSql.Text.Blank

set_option relaxedAutoImplicit false
set_option autoImplicit false

namespace ShardedSql

/-- A data source and one of its tables. -/
structure DataNode where
  dataSource : String
  table : String
  deriving DecidableEq, Repr, Inhabited

namespace DataNode

/-- Reads a node.  Exactly one point separates two names, neither of which is empty. -/
def parse (s : String) : Outcome DataNode :=
  let cs := Text.trimChars s.toList
  let source := cs.takeWhile (· ≠ '.')
  let table := (cs.dropWhile (· ≠ '.')).tail
  if source.isEmpty || table.isEmpty || table.contains '.' then
    .error ((Fault.config "Invalid format for actual data node").note "node" (String.ofList cs))
  else .ok ⟨String.ofList source, String.ofList table⟩

/-- The node as it is written. -/
def render (n : DataNode) : String := n.dataSource ++ "." ++ n.table

end DataNode

end ShardedSql
