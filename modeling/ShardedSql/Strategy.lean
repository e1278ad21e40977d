/-
**Strategies: how the targets on one axis are chosen.**

Main definitions:

* `ShardedSql.Constraint` — what is known of a column: a list of values or a range;
* `ShardedSql.Strategy` — by the value of one column, or not at all;
* `ShardedSql.Strategy.targets` — the targets that a constraint leaves.
-/

import ShardedSql.Algorithm

set_option relaxedAutoImplicit false
set_option autoImplicit false

namespace ShardedSql

/-- What the values of a column are known to be. -/
inductive Constraint where
  /-- One of these. -/
  | oneOf (values : List Value)
  /-- In a range. -/
  | within (range : Range)
  deriving Repr, DecidableEq, Inhabited

/-- The constraint as it is shown to a user. -/
def Constraint.render : Constraint → String
  | .oneOf values => "[" ++ ", ".intercalate (values.map Value.render) ++ "]"
  | .within range => range.render

/-- How the targets on one axis are chosen. -/
inductive Strategy where
  /-- By the value of one column. -/
  | standard (column : String) (algorithm : Algorithm)
  /-- Not at all: every target. -/
  | none
  deriving Repr, DecidableEq

namespace Strategy

/-- The column that decides. -/
def column? : Strategy → Option String
  | .standard column _ => some column
  | .none => Option.none

/-- The targets that an algorithm picks under a constraint. -/
def picked (column : String) (algorithm : Algorithm) (available : List String) (table : String) :
    Constraint → Outcome (List String)
  | .oneOf values => values.mapM fun v => algorithm.target available ⟨table, column, v⟩
  | .within range =>
      if range.isEmpty then .ok [] else algorithm.rangeTargets available range

/-- The available targets that a constraint on the column leaves, in their own order. -/
def targets (s : Strategy) (available : List String) (table : String)
    (constraint : Option Constraint) : Outcome (List String) :=
  match s, constraint with
  | .none, _ => .ok available
  | .standard _ _, Option.none => .ok available
  | .standard column algorithm, some c => do
      let names ← picked column algorithm available table c
      pure (available.filter fun name => names.contains name)

end Strategy

end ShardedSql
