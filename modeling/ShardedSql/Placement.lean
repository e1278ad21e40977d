/-
**Placements: where a statement runs, and which tables it finds there.**

A placement names a data source and, for each logical table of the statement, the actual table
that stands for it there.

Main definitions:

* `ShardedSql.Renaming` — a logical name and the actual one that stands for it;
* `ShardedSql.Placement` — a data source with the renamings of tables;
* `ShardedSql.Placement.covers` — the placement reaches a data node.

Main results:

* `ShardedSql.Placement.covers_of_mem` — **a placement reaches the node of each of its tables**.
-/

import ShardedSql.DataNode
import ShardedSql.Text.Ascii

set_option relaxedAutoImplicit false
set_option autoImplicit false

namespace ShardedSql

/-- A logical name and the actual one that stands for it. -/
structure Renaming where
  logic : String
  actual : String
  deriving Repr, DecidableEq, Inhabited

/-- A name that stands for itself. -/
def Renaming.same (name : String) : Renaming := ⟨name, name⟩

/-- A data source and the actual tables that stand for logical ones there. -/
structure Placement where
  source : Renaming
  tables : List Renaming
  deriving Repr, DecidableEq, Inhabited

namespace Placement

/-- The actual table that stands for a logical one. -/
def actual? (p : Placement) (logic : String) : Option String :=
  (p.tables.find? fun t => Text.sameName t.logic logic).map (·.actual)

/-- The logical table that an actual one stands for. -/
def logic? (p : Placement) (actual : String) : Option String :=
  (p.tables.find? fun t => Text.sameName t.actual actual).map (·.logic)

/-- The placement reaches a data node, which names a logical data source. -/
def covers (p : Placement) (n : DataNode) : Bool :=
  p.source.logic = n.dataSource && p.tables.any fun t => Text.sameName t.actual n.table

/-- The placement with further tables. -/
def withTables (p : Placement) (more : List Renaming) : Placement :=
  { p with tables := p.tables ++ more }

/-- One renaming as it is shown to a user. -/
def showRenaming (t : Renaming) : String := t.logic ++ "->" ++ t.actual

/-- The placement as it is shown to a user. -/
def render (p : Placement) : String :=
  match p.tables with
  | [] => p.source.actual
  | tables => p.source.actual ++ ": " ++ ", ".intercalate (tables.map showRenaming)

theorem covers_of_mem {p : Placement} {t : Renaming} (h : t ∈ p.tables) :
    p.covers ⟨p.source.logic, t.actual⟩ = true := by
  simp only [covers, decide_true, Bool.true_and, List.any_eq_true]
  exact ⟨t, h, Text.sameName_refl _⟩

end Placement

end ShardedSql
