/-
**Sharding conditions: what a statement says about the columns that tables are spread by.**

An insertion has one condition for each row.  Any other statement on rows has at most one, made of
those conjuncts of its condition that can be used; what is under a disjunction is passed over, and
a column that a negated conjunct is about is not used at all.

Main definitions:

* `ShardedSql.ColumnConstraint` — what is known of one column of one table;
* `ShardedSql.Condition` — what is known of one row or of all rows that are looked for;
* `ShardedSql.Condition.ofWhere` — the condition of a predicate;
* `ShardedSql.Condition.ofInsert` — the conditions of the rows that are inserted;
* `ShardedSql.Condition.ofStatement` — the conditions of any statement;
* `ShardedSql.LogicalSql.conditions` — the same, with the key that an insertion is given.
-/

import ShardedSql.Rule
import ShardedSql.Statement

set_option relaxedAutoImplicit false
set_option autoImplicit false

namespace ShardedSql

/-! ### Constraints -/

/-- No value meets the constraint. -/
def Constraint.isEmpty : Constraint → Bool
  | .oneOf values => values.isEmpty
  | .within range => range.isEmpty

/-- The values that meet both constraints, in the order of a list among them. -/
def Constraint.intersect : Constraint → Constraint → Constraint
  | .oneOf a, .oneOf b => .oneOf (a.filter fun v => b.contains v)
  | .oneOf a, .within r => .oneOf (a.filter r.contains)
  | .within r, .oneOf b => .oneOf (b.filter r.contains)
  | .within r, .within s => .within (r.intersect s)

/-- What is known of one column of one table. -/
structure ColumnConstraint where
  table : String
  column : String
  constraint : Constraint
  /-- The numbers of the parameters that it comes from. -/
  markers : List Nat := []
  deriving Repr, DecidableEq, Inhabited

/-- The constraint is about a column of a table. -/
def ColumnConstraint.isAbout (c : ColumnConstraint) (table column : String) : Bool :=
  Text.sameName c.table table && Text.sameName c.column column

/-- The constraint as it is shown to a user. -/
def ColumnConstraint.render (c : ColumnConstraint) : String :=
  c.table ++ "." ++ c.column ++ " in " ++ c.constraint.render

/-! ### Conditions -/

/-- What is known of one row, or of all rows that are looked for. -/
structure Condition where
  values : List ColumnConstraint := []
  /-- The place in the text of the row. -/
  start : Nat := 0
  /-- No row can meet the condition. -/
  alwaysFalse : Bool := false
  deriving Repr, DecidableEq, Inhabited

namespace Condition

/-- A condition that no row can meet. -/
def never (start : Nat) : Condition := { start := start, alwaysFalse := true }

/-- What is known of a column of a table. -/
def find? (c : Condition) (table column : String) : Option ColumnConstraint :=
  c.values.find? fun v => v.isAbout table column

/-- Something is known of a table. -/
def mentions (c : Condition) (table : String) : Bool :=
  c.values.any fun v => Text.sameName v.table table

/-- There are conditions, and no row can meet any of them. -/
def allFalse (cs : List Condition) : Bool := !cs.isEmpty && cs.all (·.alwaysFalse)

/-! ### Predicates -/

/-- The tables that a column may belong to, each once: the one that its qualifier stands for, or
without a qualifier those that are spread by it. -/
def tablesOf (rule : Rule) (tables : List TableRef) (column : ColumnRef) : List String :=
  let matching := tables.filter fun t =>
    match column.owner with
    | some owner => t.isCalled owner
    | none => rule.isShardingColumn column.name t.name
  matching.foldl Statement.addName []

/-- The tables that a column may belong to and that are spread by it. -/
def shardedTablesOf (rule : Rule) (tables : List TableRef) (column : ColumnRef) : List String :=
  (tablesOf rule tables column).filter fun t => rule.isShardingColumn column.name t

/-- The range of what compares with a value in a given way. -/
def rangeOf (op : Comparison) (v : Value) : Range :=
  match op with
  | .lt => ⟨.unbounded, .exclusive v⟩
  | .le => ⟨.unbounded, .inclusive v⟩
  | .gt => ⟨.exclusive v, .unbounded⟩
  | .ge => ⟨.inclusive v, .unbounded⟩
  | .eq => .closed v v
  | .ne => .closed v v

/-- The values of some expressions, when all of them stand for one. -/
def resolveAll? (parameters : List Value) (exprs : List Expr) : Option (List Value) :=
  exprs.mapM (Expr.resolve parameters)

/-- What a conjunct says of its column, with the parameters that it comes from; `none` when it
holds an expression that stands for no value. -/
def constraintOf? (parameters : List Value) : Predicate → Option (Constraint × List Nat)
  | .compare _ op right =>
      (right.resolve parameters).map fun v =>
        (if op = .eq then .oneOf [v] else .within (rangeOf op v), right.marker?.toList)
  | .oneOf _ list _ =>
      (resolveAll? parameters list).map fun vs => (.oneOf vs, list.filterMap Expr.marker?)
  | .between _ low high _ =>
      match low.resolve parameters, high.resolve parameters with
      | some a, some b =>
          some (.within (.closed a b), low.marker?.toList ++ high.marker?.toList)
      | _, _ => none
  | _ => none

/-- The conjunct says what a column is not. -/
def isNegated : Predicate → Bool
  | .compare _ op _ => op = .ne
  | .oneOf _ _ negated => negated
  | .between _ _ _ negated => negated
  | _ => false

/-- What is gathered from the conjuncts of a predicate. -/
structure Gathered where
  values : List ColumnConstraint := []
  /-- The tables and columns, in lower case, that cannot be used. -/
  unusable : List (String × String) := []
  /-- Two constraints exclude each other. -/
  alwaysFalse : Bool := false
  deriving Repr, DecidableEq, Inhabited

namespace Gathered

/-- Marks a column as unusable. -/
def exclude (g : Gathered) (table column : String) : Gathered :=
  { g with unusable := g.unusable ++ [(Text.lowercase table, Text.lowercase column)] }

/-- The constraints with one of them narrowed: the first about the same column of the same table. -/
def narrow (table column : String) (c : Constraint) (markers : List Nat) :
    List ColumnConstraint → Option (List ColumnConstraint × Constraint)
  | [] => none
  | v :: rest =>
      if v.isAbout table column then
        let merged := v.constraint.intersect c
        some ({ v with constraint := merged, markers := v.markers ++ markers } :: rest, merged)
      else (narrow table column c markers rest).map fun p => (v :: p.1, p.2)

/-- Adds what is known of a column. -/
def add (g : Gathered) (table column : String) (c : Constraint) (markers : List Nat) : Gathered :=
  match narrow table column c markers g.values with
  | some (values, merged) =>
      { g with values := values, alwaysFalse := g.alwaysFalse || merged.isEmpty }
  | none =>
      { g with
        values := g.values ++ [⟨table, column, c, markers⟩]
        alwaysFalse := g.alwaysFalse || c.isEmpty }

/-- Adds what a conjunct says of its column as one of a table. -/
def addConjunct (parameters : List Value) (p : Predicate) (column : String) (g : Gathered)
    (table : String) : Gathered :=
  if isNegated p then g.exclude table column
  else
    match constraintOf? parameters p with
    | some (c, markers) => g.add table column c markers
    | none => g

/-- Adds what a conjunct says. -/
def addPredicate (rule : Rule) (tables : List TableRef) (parameters : List Value) (g : Gathered)
    (p : Predicate) : Gathered :=
  match p.column? with
  | none => g
  | some column =>
      (shardedTablesOf rule tables column).foldl (addConjunct parameters p column.name) g

/-- The column of a constraint is unusable. -/
def excludes (g : Gathered) (v : ColumnConstraint) : Bool :=
  g.unusable.any fun u => v.isAbout u.1 u.2

/-- The conditions that have been gathered: none when nothing is known. -/
def conditions (g : Gathered) : List Condition :=
  if g.alwaysFalse then [never 0]
  else
    let values := g.values.filter fun v => !g.excludes v
    if values.isEmpty then [] else [{ values := values }]

end Gathered

/-- The conditions of a predicate on some tables. -/
def ofWhere (rule : Rule) (tables : List TableRef) (predicate : Option Predicate)
    (parameters : List Value) : List Condition :=
  match predicate with
  | none => []
  | some p => (p.conjuncts.foldl (Gathered.addPredicate rule tables parameters) {}).conditions

end Condition

/-! ### Generated keys -/

/-- The values of the key column of an insertion. -/
structure GeneratedKey where
  column : String
  /-- The values were generated, as the statement has none. -/
  generated : Bool
  /-- The values, one for each row when they were generated. -/
  values : List Value
  deriving Repr, DecidableEq, Inhabited

/-- The values of the key column of an insertion, generated where the statement has none. -/
def GeneratedKey.ofInsert (rule : Rule) (i : Insert) (parameters : List Value) :
    Rule.Counting (Option GeneratedKey) :=
  match rule.keyColumn? i.table.name with
  | none => pure none
  | some column =>
      match i.columnIndex? column with
      | some index =>
          pure (some ⟨column, false,
            i.rows.filterMap fun r => r.exprs[index]?.bind (Expr.resolve parameters)⟩)
      | none =>
          if i.columnNames.isEmpty then
            throw ((Fault.unsupported "Insert without a column list cannot have a generated key")
              |>.note "table" i.table.name |>.note "column" column)
          else do
            let values ← rule.generateKeys i.table.name i.rows.length
            pure (some ⟨column, true, values⟩)

namespace Condition

/-! ### Insertions -/

/-- What the expressions of a row say of the columns that the table is spread by. -/
def rowValues (t : TableRule) (columns : List String) (exprs : List Expr)
    (parameters : List Value) : List ColumnConstraint :=
  (columns.zip exprs).filterMap fun p =>
    if t.isShardingColumn p.1 then
      (p.2.resolve parameters).map fun v =>
        ⟨t.logicTable, p.1, .oneOf [v], p.2.marker?.toList⟩
    else none

/-- What a generated key says of the row with a number. -/
def keyValues (t : TableRule) (key : Option GeneratedKey) (row : Nat) : List ColumnConstraint :=
  match key with
  | some k =>
      if k.generated && t.isShardingColumn k.column then
        k.values[row]?.toList.map fun v => ⟨t.logicTable, k.column, .oneOf [v], []⟩
      else []
  | none => []

/-- The condition of the row with a number. -/
def ofRow (t : TableRule) (i : Insert) (parameters : List Value) (key : Option GeneratedKey)
    (row : Nat) (exprs : List Expr) : Condition :=
  { values := rowValues t i.columnNames exprs parameters ++ keyValues t key row
    start := (i.values[row]?.map (·.start)).getD 0 }

/-- The first column that is assigned on a duplicate key although the table is spread by it. -/
def assignedOnDuplicate? (t : TableRule) (i : Insert) : Option String :=
  (i.onDuplicate.map fun a => a.column.name).find? t.isShardingColumn

/-- The conditions of the rows that are inserted. -/
def ofInsert (rule : Rule) (i : Insert) (parameters : List Value) (key : Option GeneratedKey) :
    Outcome (List Condition) :=
  match rule.table? i.table.name with
  | none => .ok []
  | some t =>
      if i.columnNames.isEmpty then
        .error ((Fault.unsupported "Insert into a sharded table requires a column list").note
          "table" i.table.name)
      else
        match assignedOnDuplicate? t i with
        | some column =>
            .error ((Fault.unsupported "Cannot update sharding column on duplicate key")
              |>.note "table" i.table.name |>.note "column" column)
        | none =>
            .ok (i.rowExprs.mapIdx fun row exprs => ofRow t i parameters key row exprs)

/-! ### Changes -/

/-- The assignment gives a column the value that the condition asks of it anyway. -/
def keepsValue (conditions : List Condition) (parameters : List Value) (a : Assignment)
    (table : String) : Bool :=
  match a.value.resolve parameters, conditions.head? with
  | some v, some c =>
      (c.find? table a.column.name).any fun known => known.constraint = .oneOf [v]
  | _, _ => false

/-- Refuses assignments that may move a row to another shard. -/
def checkAssignments (rule : Rule) (u : Update) (conditions : List Condition)
    (parameters : List Value) : Outcome Unit :=
  u.assignments.forM fun a =>
    (shardedTablesOf rule u.tables a.column).forM fun table =>
      if keepsValue conditions parameters a table then .ok ()
      else
        .error ((Fault.unsupported "Cannot update sharding column")
          |>.note "table" table |>.note "column" a.column.name)

/-- The conditions of a statement. -/
def ofStatement (rule : Rule) (s : Statement) (parameters : List Value)
    (key : Option GeneratedKey) : Outcome (List Condition) :=
  match s with
  | .insert i => ofInsert rule i parameters key
  | .update u => do
      let conditions := ofWhere rule u.tables u.condition parameters
      checkAssignments rule u conditions parameters
      pure conditions
  | .select s => .ok (ofWhere rule s.tables s.condition parameters)
  | .delete d => .ok (ofWhere rule d.tables d.condition parameters)
  | .ddl _ => .ok []
  | .dcl _ => .ok []

end Condition

/-- The key of an insertion, and the conditions of a statement with that key. -/
def LogicalSql.conditions (sql : LogicalSql) (rule : Rule) :
    Rule.Counting (Option GeneratedKey × List Condition) := do
  let key ←
    match sql.statement with
    | .insert i => GeneratedKey.ofInsert rule i sql.parameters
    | _ => pure none
  let conditions ←
    liftM (m := Except Fault) (Condition.ofStatement rule sql.statement sql.parameters key)
  pure (key, conditions)

end ShardedSql
