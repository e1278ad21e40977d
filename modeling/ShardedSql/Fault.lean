/-
**Faults: what went wrong, of which kind, and because of what.**

Every operation of the library that can fail answers with a `Fault`: a report (a kind, a message
and named fields in the order they were noted), the reports that explain it from the nearest to
the deepest, and the text of the root failure when that one comes from reading a number or an
encoding and so has no kind of its own.

Main definitions:

* `ShardedSql.FaultKind` — the eight kinds, each with its label;
* `ShardedSql.Fault` — a report with its chain of causes;
* `ShardedSql.Fault.note`, `ShardedSql.Fault.because` — adding a field, and explaining one fault
  by another;
* `ShardedSql.Fault.render` — the text shown to a user: the message, one indented line for each
  field, and the cause.
-/

set_option relaxedAutoImplicit false
set_option autoImplicit false

namespace ShardedSql

/-! ### Kinds -/

/-- The broad classification of a fault. -/
inductive FaultKind where
  /-- A rule configuration or a kernel setting that cannot be used. -/
  | config
  /-- A logical table without a rule where no default data source exists. -/
  | tableNotFound
  /-- A sharding algorithm found no target, or bound tables disagree on a shard. -/
  | algorithm
  /-- A statement shape that the kernel refuses. -/
  | unsupported
  /-- Edits that do not fit the text they are made to. -/
  | editing
  /-- A failure that a physical shard reported. -/
  | execution
  /-- A failure while physical cursors were advanced or read. -/
  | merge
  /-- Anything else. -/
  | internal
  deriving DecidableEq, Repr, Inhabited

/-- The name of a kind as it is shown to a user. -/
def FaultKind.label : FaultKind → String
  | .config => "configuration error"
  | .tableNotFound => "table not found"
  | .algorithm => "sharding algorithm error"
  | .unsupported => "unsupported"
  | .editing => "rewrite contract violation"
  | .execution => "execution error"
  | .merge => "merge error"
  | .internal => "internal error"

/-! ### Faults -/

/-- One failure by itself. -/
structure Report where
  /-- Its classification. -/
  kind : FaultKind
  /-- What happened. -/
  message : String
  /-- Named details, in the order they were noted. -/
  fields : List (String × String) := []
  deriving DecidableEq, Repr, Inhabited

/-- A failure together with what caused it. -/
structure Fault where
  /-- The failure itself. -/
  report : Report
  /-- The failures that explain it, the nearest first. -/
  causes : List Report := []
  /-- The text of the deepest cause when that is not a report. -/
  root : Option String := none
  deriving DecidableEq, Repr, Inhabited

/-- The answer of an operation that may fail. -/
abbrev Outcome := Except Fault

namespace Fault

/-- A fault without fields and without a cause. -/
def ofKind (kind : FaultKind) (message : String) : Fault :=
  { report := { kind := kind, message := message } }

/-- The kind of a fault is the kind of its own report. -/
def kind (f : Fault) : FaultKind := f.report.kind

/-- The message of a fault is the message of its own report. -/
def message (f : Fault) : String := f.report.message

/-- The fields of a fault, without those of its causes. -/
def fields (f : Fault) : List (String × String) := f.report.fields

/-- Adds a named detail after those already there. -/
def note (f : Fault) (key value : String) : Fault :=
  { f with report := { f.report with fields := f.report.fields ++ [(key, value)] } }

/-- Explains `f` by `cause`, which replaces an earlier explanation. -/
def because (f cause : Fault) : Fault :=
  { f with causes := cause.report :: cause.causes, root := cause.root }

/-- Explains `f` by a failure of which only the text is known. -/
def becauseText (f : Fault) (text : String) : Fault :=
  { f with causes := [], root := some text }

/-- The fault that explains `f`, when it is a report. -/
def cause? (f : Fault) : Option Fault :=
  match f.causes with
  | [] => none
  | r :: rest => some { report := r, causes := rest, root := f.root }

/-- The first value noted under a name. -/
def field? (f : Fault) (key : String) : Option String :=
  (f.fields.find? fun kv => kv.1 = key).map Prod.snd

@[simp] theorem kind_ofKind (k : FaultKind) (m : String) : (ofKind k m).kind = k := rfl

@[simp] theorem kind_note (f : Fault) (k v : String) : (f.note k v).kind = f.kind := rfl

@[simp] theorem cause?_because (f c : Fault) : (f.because c).cause? = some c := rfl

/-! ### Text -/

end Fault

/-- The message, then one indented line for each field. -/
def Report.render (r : Report) : String :=
  r.fields.foldl (fun out kv => out ++ "\n  " ++ kv.1 ++ ": " ++ kv.2) r.message

namespace Fault

/-- The line that opens the text of a cause. -/
def causeMark : String := "\nError source: "

/-- The text of the cause alone, when there is one. -/
def renderCause? (f : Fault) : Option String :=
  match f.causes.map Report.render ++ f.root.toList with
  | [] => none
  | texts => some (causeMark.intercalate texts)

/-- The text of a fault: its own report, then each cause under its mark. -/
def render (f : Fault) : String :=
  causeMark.intercalate (f.report.render :: f.causes.map Report.render ++ f.root.toList)

/-! ### Faults of general use -/

/-- A configuration that cannot be used. -/
def config (message : String) : Fault := ofKind .config message

/-- An internal fault. -/
def internal (message : String) : Fault := ofKind .internal message

/-- A sharding algorithm that has no answer. -/
def algorithm (message : String) : Fault := ofKind .algorithm message

/-- A statement that is refused. -/
def unsupported (message : String) : Fault := ofKind .unsupported message

/-- A failure while merging. -/
def merge (message : String) : Fault := ofKind .merge message

/-- A failure that a shard reported. -/
def execution (message : String) : Fault := ofKind .execution message

/-- A table for which there is neither a rule nor a default data source. -/
def tableNotFound (table : String) : Fault :=
  (ofKind .tableNotFound "Cannot find table rule or default data source").note "table" table

/-- A value that had to be there. -/
def missing (what : String) : Fault := internal ("Missing required value: " ++ what)

/-- A capability that does not exist yet. -/
def notImplemented (what : String) : Fault := unsupported ("Not yet implemented: " ++ what)

/-- An integer that could not be read, with the reader's own text as the cause. -/
def unreadableInteger (text : String) : Fault :=
  (config "Failed to parse integer").becauseText text

/-- Text that could not be produced. -/
def unformattable : Fault :=
  (internal "Format error").becauseText "an error occurred when formatting an argument"

/-- Wraps a fault in an internal one that says what was being done. -/
def within (cause : Fault) (doing : String) : Fault := (internal doing).because cause

end Fault

/-- Adds a named detail to the fault of an outcome that failed. -/
def Outcome.note {α : Type} (x : Outcome α) (key value : String) : Outcome α :=
  x.mapError fun f => f.note key value

@[simp] theorem Outcome.note_ok {α : Type} (a : α) (k v : String) :
    Outcome.note (Except.ok a) k v = Except.ok a := rfl

@[simp] theorem Outcome.note_error {α : Type} (f : Fault) (k v : String) :
    Outcome.note (Except.error f : Outcome α) k v = Except.error (f.note k v) := rfl

end ShardedSql
