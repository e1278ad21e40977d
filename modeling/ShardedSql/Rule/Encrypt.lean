/-
**Encrypted columns.**

A logical column is stored as a cipher column, and possibly as an assisted column that predicates
are compared with and as a plain column.

Main definitions:

* `ShardedSql.EncryptColumn` — the columns behind one logical column, with its encryptors;
* `ShardedSql.EncryptColumn.queryColumn`, `ShardedSql.EncryptColumn.queryValue` — what a predicate
  is compared with;
* `ShardedSql.EncryptRule` — the encrypted columns of each table.
-/

import ShardedSql.Encryptor
import ShardedSql.Text.Ascii
import ShardedSql.Text.Case

set_option relaxedAutoImplicit false
set_option autoImplicit false

namespace ShardedSql

/-- The columns behind one logical column. -/
structure EncryptColumn where
  logicColumn : String
  cipherColumn : String
  assistedColumn : Option String
  plainColumn : Option String
  encryptor : Encryptor
  assistedEncryptor : Option Encryptor
  deriving Repr

deriving noncomputable instance DecidableEq for EncryptColumn

namespace EncryptColumn

/-- What is written to the assisted column, when there is one. -/
def assistedValue (c : EncryptColumn) (plain : Value) : Outcome (Option Value) :=
  match c.assistedColumn with
  | none => .ok none
  | some _ => ((c.assistedEncryptor.getD c.encryptor).encrypt plain).map some

/-- The column that predicates are compared with: the assisted column when there is one. -/
def queryColumn (c : EncryptColumn) : String := c.assistedColumn.getD c.cipherColumn

/-- The value that predicates are compared with. -/
def queryValue (c : EncryptColumn) (plain : Value) : Outcome Value := do
  match ← c.assistedValue plain with
  | some v => pure v
  | none => c.encryptor.encrypt plain

end EncryptColumn

/-- The encrypted columns of each table, by the table's name in lower case. -/
structure EncryptRule where
  tables : Dictionary (List EncryptColumn) := {}
  deriving Repr, Inhabited

deriving noncomputable instance DecidableEq for EncryptRule

namespace EncryptRule

/-- No table has encrypted columns. -/
def isEmpty (r : EncryptRule) : Bool := r.tables.entries.isEmpty

/-- The encrypted columns of a table. -/
def columns? (r : EncryptRule) (table : String) : Option (List EncryptColumn) :=
  r.tables.get? (Text.lowercase table)

/-- The encrypted column with a logical name. -/
def column? (r : EncryptRule) (table column : String) : Option EncryptColumn :=
  (r.columns? table).bind fun cs => cs.find? fun c => Text.sameName c.logicColumn column

/-- The encrypted column with the name of a cipher column. -/
def byCipher? (r : EncryptRule) (table cipher : String) : Option EncryptColumn :=
  (r.columns? table).bind fun cs => cs.find? fun c => Text.sameName c.cipherColumn cipher

end EncryptRule

end ShardedSql
