/-
**Edits of encrypted columns.**

Predicates compare the query column with an encrypted value.  What is written to a column is
written encrypted to its cipher column, and also to its assisted and its plain column where it has
them.  A selected column is read from its cipher column under its own name.

Main definitions:

* `ShardedSql.Editing.encryptColumn?` — the encrypted column that a statement means;
* `ShardedSql.Editing.encryptedPredicate`, `ShardedSql.Editing.encryptedAssignments`,
  `ShardedSql.Editing.encryptedRows`, `ShardedSql.Editing.encryptedProjection?` — the edits of the
  parts of a statement;
* `ShardedSql.Editing.encryption` — all edits of encrypted columns.
-/

import ShardedSql.Editing

set_option relaxedAutoImplicit false
set_option autoImplicit false

namespace ShardedSql

namespace Editing

/-! ### Columns -/

/-- The encrypted column that a column of a statement is.  A qualifier stands for the first table
that it may stand for; without one the first table with such a column counts. -/
def encryptColumn? (rule : EncryptRule) (tables : List TableRef) (c : ColumnRef) :
    Option EncryptColumn :=
  match c.owner with
  | some owner =>
      (tables.find? fun t => t.isCalled owner).bind fun t => rule.column? t.name c.name
  | none => tables.findSome? fun t => rule.column? t.name c.name

/-- The place of the first byte of a column's name, behind its qualifier. -/
def nameStart (name : String) (stop : Nat) : Nat := stop + 1 - name.utf8ByteSize

/-- Puts another text in place of a column's name. -/
def renameColumn (c : ColumnRef) (text : String) : Edit :=
  .encryption (nameStart c.name c.stop) c.stop text

/-- A range of an encrypted column, which says nothing of its values. -/
def rangeFault (c : ColumnRef) : Fault :=
  (Fault.unsupported "Range predicates on encrypted columns are not supported").note
    "column" c.name

/-- An expression of which the value is not known. -/
def expressionFault (column text : String) : Fault :=
  (Fault.unsupported "Encrypted columns only accept literal or parameter values")
    |>.note "column" column |>.note "expression" text

/-- The parameter with a number. -/
def parameter (parameters : List Value) (index : Nat) : Outcome Value :=
  match parameters[index]? with
  | some v => .ok v
  | none =>
      .error ((Fault.ofKind .editing "Parameter index out of range")
        |>.note "index" (toString index) |>.note "parameters" (toString parameters.length))

/-! ### Predicates -/

/-- Encrypts a value that a column is compared with. -/
def encryptedOperand (parameters : List Value) (column : EncryptColumn) :
    Expr → Editing (List Edit)
  | .literal value start stop => do
      let v ← ofOutcome (column.queryValue value)
      pure [.encryption start stop v.literal]
  | .marker index _ _ => do
      let plain ← ofOutcome (parameter parameters index)
      let b ← requireWhole "Encrypted predicates require a standard parameter builder"
      let v ← ofOutcome (column.queryValue plain)
      bindWhole (b.replace index v)
      pure []
  | .raw text _ _ => throw (expressionFault column.logicColumn text)

/-- The edits of some values that a column is compared with. -/
def encryptedOperands (parameters : List Value) (column : EncryptColumn) :
    List Expr → Editing (List Edit)
  | [] => pure []
  | e :: rest => do
      let first ← encryptedOperand parameters column e
      let others ← encryptedOperands parameters column rest
      pure (first ++ others)

/-- The edits of a condition without parts. -/
def encryptedPredicate (rule : EncryptRule) (tables : List TableRef) (parameters : List Value) :
    Predicate → Editing (List Edit)
  | .compare c op right =>
      match encryptColumn? rule tables c with
      | none => pure []
      | some column => do
          if op = .eq ∨ op = .ne then
            let operands ← encryptedOperand parameters column right
            pure (renameColumn c column.queryColumn :: operands)
          else throw (rangeFault c)
  | .oneOf c list _ =>
      match encryptColumn? rule tables c with
      | none => pure []
      | some column => do
          let operands ← encryptedOperands parameters column list
          pure (renameColumn c column.queryColumn :: operands)
  | .between c _ _ _ =>
      match encryptColumn? rule tables c with
      | none => pure []
      | some _ => throw (rangeFault c)
  | _ => pure []

/-- The edits of some conditions without parts. -/
def encryptedPredicates (rule : EncryptRule) (tables : List TableRef) (parameters : List Value) :
    List Predicate → Editing (List Edit)
  | [] => pure []
  | p :: rest => do
      let first ← encryptedPredicate rule tables parameters p
      let others ← encryptedPredicates rule tables parameters rest
      pure (first ++ others)

/-! ### Select lists -/

/-- The edit of an item of the select list that is an encrypted column. -/
def encryptedProjection? (rule : EncryptRule) (tables : List TableRef) : Projection → Option Edit
  | .column owner name alias? _ stop =>
      (encryptColumn? rule tables ⟨owner, name, nameStart name stop, stop⟩).map fun column =>
        let text :=
          match alias? with
          | some _ => column.cipherColumn
          | none => column.cipherColumn ++ " AS " ++ name
        .encryption (nameStart name stop) stop text
  | _ => none

/-! ### Assignments -/

/-- What is assigned to the columns behind an encrypted one that is assigned a literal. -/
def literalParts (column : EncryptColumn) (v : Value) : Outcome (List (String × Value)) := do
  let cipher ← column.encryptor.encrypt v
  let assisted ← column.assistedValue v
  let assistedPart :=
    match column.assistedColumn, assisted with
    | some c, some a => [(c, a)]
    | _, _ => []
  pure ((column.cipherColumn, cipher) :: assistedPart ++
    column.plainColumn.toList.map fun c => (c, v))

/-- The same for a parameter with a number: the columns, with their values bound in order. -/
def markerParts (column : EncryptColumn) (index : Nat) (plain : Value) :
    Editing (List String) := do
  let b ← requireWhole "Encrypted assignments require a standard parameter builder"
  let cipher ← ofOutcome (column.encryptor.encrypt plain)
  let b := b.replace index cipher
  bindWhole b
  let assisted ← ofOutcome (column.assistedValue plain)
  let assistedPart :=
    match column.assistedColumn, assisted with
    | some c, some a => [(c, a)]
    | _, _ => []
  let more := assistedPart ++ column.plainColumn.toList.map fun c => (c, plain)
  bindWhole (b.insertAfter index (more.map (·.2)))
  pure (column.cipherColumn :: more.map (·.1))

/-- An assignment as text. -/
def assigned (column value : String) : String := column ++ " = " ++ value

/-- The edits of an assignment. -/
def encryptedAssignment (rule : EncryptRule) (tables : List TableRef) (parameters : List Value)
    (a : Assignment) : Editing (List Edit) :=
  match encryptColumn? rule tables a.column with
  | none => pure []
  | some column => do
      let parts ←
        match a.value with
        | .literal v _ _ => do
            let parts ← ofOutcome (literalParts column v)
            pure (parts.map fun p => assigned p.1 p.2.literal)
        | .marker index _ _ => do
            let plain ← ofOutcome (parameter parameters index)
            let columns ← markerParts column index plain
            pure (columns.map fun c => assigned c "?")
        | .raw text _ _ => throw (expressionFault column.logicColumn text)
      pure [.encryption a.start a.stop (", ".intercalate parts)]

/-- The edits of some assignments. -/
def assignmentEdits (rule : EncryptRule) (tables : List TableRef) (parameters : List Value) :
    List Assignment → Editing (List Edit)
  | [] => pure []
  | a :: rest => do
      let first ← encryptedAssignment rule tables parameters a
      let others ← assignmentEdits rule tables parameters rest
      pure (first ++ others)

/-- The edits of the assignments of a statement, whose parameters are the same everywhere. -/
def encryptedAssignments (rule : EncryptRule) (tables : List TableRef) (parameters : List Value)
    (assignments : List Assignment) : Editing (List Edit) := do
  let _ ← requireWhole "Encrypted assignments require a standard parameter builder"
  assignmentEdits rule tables parameters assignments

/-! ### Rows -/

/-- The encrypted columns of a column list, with their places in it. -/
def encryptedAmong (rule : EncryptRule) (tables : List TableRef) (columns : List ColumnRef) :
    List (Nat × ColumnRef × EncryptColumn) :=
  columns.zipIdx.filterMap fun p =>
    (encryptColumn? rule tables p.1).map fun column => (p.2, p.1, column)

/-- The columns that are added to the column list for an encrypted one. -/
def addedColumns (column : EncryptColumn) : List String :=
  column.assistedColumn.toList ++ column.plainColumn.toList

/-- The edits with columns added to the first that adds columns, if there is one. -/
def extendColumns? (more : List String) : List Edit → Option (List Edit)
  | [] => none
  | .insertColumns start columns :: rest => some (.insertColumns start (columns ++ more) :: rest)
  | e :: rest => (extendColumns? more rest).map (e :: ·)

/-- Adds columns to the column list of an insertion. -/
def addColumns (i : Insert) (more : List String) : Editing (List Edit) := do
  if more.isEmpty then pure []
  else
    let d ← get
    match extendColumns? more d.edits with
    | some edits =>
        set { d with edits := edits }
        pure []
    | none =>
        match i.columnsStop with
        | some start => pure [.insertColumns start more]
        | none =>
            throw ((Fault.unsupported "Encrypted insert requires an explicit column list").note
              "table" i.table.name)

/-- The edits with a row changed, in the first that writes rows. -/
def changeRow (row : Nat) (change : RowDraft → RowDraft) : List Edit → List Edit
  | [] => []
  | .insertRows start stop rows :: rest => .insertRows start stop (rows.modify row change) :: rest
  | e :: rest => e :: changeRow row change rest

/-- How many rows the first edit that writes rows has. -/
def draftedRows? : List Edit → Option Nat
  | [] => none
  | .insertRows _ _ rows :: _ => some rows.length
  | _ :: rest => draftedRows? rest

/-- Changes a value of a row that is written anew. -/
def setValue (row index : Nat) (v : RowValue) : Editing PUnit :=
  modify fun d =>
    { d with edits := changeRow row (fun r => { r with values := r.values.set index v }) d.edits }

/-- Adds a value to a row that is written anew. -/
def addValue (row : Nat) (v : RowValue) : Editing PUnit :=
  modify fun d =>
    { d with edits := changeRow row (fun r => { r with values := r.values ++ [v] }) d.edits }

/-- Binds a further parameter of a row, and writes a marker for it. -/
def addMarker (row : Nat) (v : Value) : Editing PUnit := do
  let b ← requireGrouped "Encrypted insert values require a grouped parameter builder"
  bindGrouped (b.add row v)
  addValue row .marker

/-- Encrypts the value of a column in a row. -/
def encryptedValue (parameters : List Value) (row : Nat) (r : ValueRow) (index : Nat)
    (column : EncryptColumn) : Editing PUnit := do
  match r.exprs[index]? with
  | none =>
      throw ((Fault.ofKind .editing "Insert row has fewer values than columns")
        |>.note "row" (toString row) |>.note "column" (toString index))
  | some (.literal v _ _) =>
      let cipher ← ofOutcome (column.encryptor.encrypt v)
      setValue row index (.literal cipher)
      let assisted ← ofOutcome (column.assistedValue v)
      assisted.toList.forM fun a => addValue row (.literal a)
      if column.plainColumn.isSome then addValue row (.literal v)
  | some (.marker n _ _) =>
      let plain ← ofOutcome (parameter parameters n)
      let b ← requireGrouped "Encrypted insert values require a grouped parameter builder"
      let cipher ← ofOutcome (column.encryptor.encrypt plain)
      bindGrouped (b.replace row (n - r.offset) cipher)
      let assisted ← ofOutcome (column.assistedValue plain)
      assisted.toList.forM (addMarker row)
      if column.plainColumn.isSome then addMarker row plain
  | some (.raw text _ _) => throw (expressionFault column.logicColumn text)

/-- Encrypts the values of some columns in the rows from the one with a number on. -/
def encryptedValues (parameters : List Value) (columns : List (Nat × ColumnRef × EncryptColumn))
    (row : Nat) : List ValueRow → Editing PUnit
  | [] => pure ()
  | r :: rest => do
      columns.forM fun c => encryptedValue parameters row r c.1 c.2.2
      encryptedValues parameters columns (row + 1) rest

/-- The edits of the column list of an insertion; its rows are changed where they are written
anew. -/
def encryptedRows (rule : EncryptRule) (tables : List TableRef) (parameters : List Value)
    (i : Insert) : Editing (List Edit) := do
  let columns := encryptedAmong rule tables i.columns
  if columns.isEmpty then pure []
  else
    let renamed := columns.map fun c => renameColumn c.2.1 c.2.2.cipherColumn
    let added ← addColumns i (columns.flatMap fun c => addedColumns c.2.2)
    match draftedRows? (← get).edits with
    | none =>
        throw (Fault.ofKind .editing "Encrypted insert is missing its insert values token")
    | some n =>
        encryptedValues parameters columns 0 (i.rows.take n)
        pure (renamed ++ added)

/-! ### Statements -/

/-- Refuses an encrypted column that is assigned on a duplicate key. -/
def checkOnDuplicate (rule : EncryptRule) (tables : List TableRef) (i : Insert) : Outcome Unit :=
  match i.onDuplicate.find? fun a => (encryptColumn? rule tables a.column).isSome with
  | some a =>
      .error ((Fault.unsupported
        "Encrypted columns cannot be assigned in ON DUPLICATE KEY UPDATE").note
          "column" a.column.name)
  | none => .ok ()

/-- The edits of encrypted columns outside the condition. -/
def encryptedParts (rule : EncryptRule) (parameters : List Value) (s : Statement) :
    Editing (List Edit) :=
  match s with
  | .select q =>
      pure (q.projections.items.filterMap (encryptedProjection? rule s.tables))
  | .update u => encryptedAssignments rule s.tables parameters u.assignments
  | .insert i => do
      let edits ←
        match i.set with
        | some set => encryptedAssignments rule s.tables parameters set.assignments
        | none => encryptedRows rule s.tables parameters i
      ofOutcome (checkOnDuplicate rule s.tables i)
      pure edits
  | _ => pure []

/-- A table of the statement has encrypted columns. -/
def hasEncryptedTable (rule : EncryptRule) (s : Statement) : Bool :=
  !rule.isEmpty && s.tables.any fun t => (rule.columns? t.name).isSome

/-- The edits of encrypted columns. -/
def encryption (rule : EncryptRule) (sql : LogicalSql) : Editing (List Edit) := do
  let leaves := (sql.statement.condition?.map Predicate.leaves).getD []
  let predicates ← encryptedPredicates rule sql.statement.tables sql.parameters leaves
  let others ← encryptedParts rule sql.parameters sql.statement
  pure (predicates ++ others)

end Editing

end ShardedSql
