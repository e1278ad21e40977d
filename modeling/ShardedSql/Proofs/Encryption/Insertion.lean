/-
**Insertions into tables with encrypted columns.**

Encrypted columns are renamed in the column list, and further columns are put behind it: first that
of a generated key, then those that are added for the encrypted ones.  The rows are written anew
with their keys first, and then they are encrypted where they are.

Main definitions:

* `ShardedSql.Expr.IsStoredAs` — what is stored for an expression, under the names of its columns;
* `ShardedSql.Editing.Adds` — the columns that edits add;
* `ShardedSql.Routed.WritesEncrypted` — **what all editors make of an insertion**.

Main results:

* `ShardedSql.RowPieces.IsEncrypted.exists_parts` — a row is read as what is stored for it;
* `ShardedSql.Editing.addColumns_spec` — columns are added behind those that were added before;
* `ShardedSql.Routed.writesEncrypted_of_insert` — **the draft of an insertion**.
-/

import ShardedSql.Proofs.Editor.Leading
import ShardedSql.Proofs.Encryption.Rows
import ShardedSql.Proofs.Physical

set_option relaxedAutoImplicit false
set_option autoImplicit false

namespace ShardedSql

open Filling

/-! ### What is stored -/

section

variable {rule : EncryptRule} {tables : List TableRef} {parameters : List Value} {c : ColumnRef}
  {columns : List ColumnRef} {e : Expr} {exprs : List Expr} {x y : RowPieces}

/-- What is stored for an expression that is given to a column, under the names of the columns that
it is written to. -/
def Expr.IsStoredAs (rule : EncryptRule) (tables : List TableRef) (parameters : List Value)
    (c : ColumnRef) (e : Expr) (part : List (String × Cell)) : Prop :=
  match Editing.encryptColumn? rule tables c with
  | none => part = [(c.name, e.cell parameters)]
  | some column => ∃ v parts, e.resolve parameters = some v ∧ column.stored v = .ok parts ∧
      part = parts.map fun p => (p.1, .value p.2)

/-- What is written for an expression is read as what is stored for it. -/
theorem Expr.IsWrittenAs.exists_part {p : Piece × List Piece}
    (h : e.IsWrittenAs rule tables parameters c p) :
    ∃ part, e.IsStoredAs rule tables parameters c part ∧
      (part.take 1).map Prod.snd = [p.1.cell] ∧
      (part.drop 1).map Prod.snd = p.2.map Piece.cell := by
  unfold IsWrittenAs at h
  unfold IsStoredAs
  cases hc : Editing.encryptColumn? rule tables c with
  | none =>
      rw [hc] at h
      cases h
      exact ⟨_, rfl, rfl, rfl⟩
  | some column =>
      rw [hc] at h
      obtain ⟨v, parts, cipher, others, hv, hparts, hvalues, rfl⟩ := h
      have hcells : (parts.map fun p => (p.1, Cell.value p.2)).map Prod.snd =
          .value cipher :: others.map Cell.value := by
        rw [List.map_map, ← List.map_cons, ← hvalues, List.map_map]
        rfl
      refine ⟨_, ⟨v, parts, hv, hparts, rfl⟩, ?_, ?_⟩
      · rw [List.map_take, hcells, Piece.cell_replacing]
        rfl
      · rw [List.map_drop, hcells, List.map_map]
        exact List.map_congr_left fun w _ => (Piece.cell_further e.isMarker w).symm

theorem Expr.exists_parts_of_written {given : List (ColumnRef × Expr)}
    {ps : List (Piece × List Piece)}
    (h : List.Forall₂ (fun p q => p.2.IsWrittenAs rule tables parameters p.1 q) given ps) :
    ∃ parts, List.Forall₂ (fun p part => p.2.IsStoredAs rule tables parameters p.1 part)
        given parts ∧
      (parts.flatMap (List.take 1)).map Prod.snd = (ps.map Prod.fst).map Piece.cell ∧
      (parts.flatMap (List.drop 1)).map Prod.snd = (ps.flatMap Prod.snd).map Piece.cell := by
  induction h with
  | nil => exact ⟨[], .nil, rfl, rfl⟩
  | cons hp _ ih =>
      obtain ⟨part, hpart, hfirst, hothers⟩ := hp.exists_part
      obtain ⟨parts, hall, hfirsts, hrest⟩ := ih
      refine ⟨part :: parts, .cons hpart hall, ?_, ?_⟩
      · rw [List.flatMap_cons, List.map_append, hfirst, hfirsts]
        rfl
      · rw [List.flatMap_cons, List.map_append, hothers, hrest, List.flatMap_cons,
          List.map_append]

namespace RowPieces.IsEncrypted

/-- **A row is read as what is stored for it**: in the places of its expressions what has the first
of the columns behind each, and behind the values that were added before what has the others. -/
theorem exists_parts (h : x.IsEncrypted rule tables parameters columns exprs y) :
    ∃ parts, List.Forall₂ (fun p part => p.2.IsStoredAs rule tables parameters p.1 part)
        (columns.zip exprs) parts ∧
      y.cells = (parts.flatMap (List.take 1)).map Prod.snd ++
        (exprs.drop columns.length).map (Expr.cell parameters) ++ x.added.map Piece.cell ++
          (parts.flatMap (List.drop 1)).map Prod.snd := by
  obtain ⟨ps, hps, rfl⟩ := h
  obtain ⟨parts, hall, hfirsts, hrest⟩ := Expr.exists_parts_of_written hps
  refine ⟨parts, hall, ?_⟩
  have hkept : ((exprs.drop columns.length).map (Piece.ofExpr parameters)).map Piece.cell =
      (exprs.drop columns.length).map (Expr.cell parameters) := by
    rw [List.map_map]
    rfl
  rw [hfirsts, hrest, cells, List.map_append, List.map_append, List.map_append, hkept]
  simp only [List.append_assoc]

theorem isRead (h : x.IsEncrypted rule tables parameters columns exprs y)
    (hexprs : ∀ e ∈ exprs, ∀ n ∈ e.marker?, n < parameters.length)
    (hadded : ∀ p ∈ x.added, p.IsRead) : ∀ p ∈ y.own ++ y.added, p.IsRead := by
  obtain ⟨ps, hps, rfl⟩ := h
  have hpiece : ∀ q ∈ ps, q.1.IsRead ∧ ∀ p ∈ q.2, p.IsRead := by
    intro q hq
    obtain ⟨p, hp, hwritten⟩ := Lists.exists_of_forall₂_right hps hq
    unfold Expr.IsWrittenAs at hwritten
    split at hwritten
    · cases hwritten
      exact ⟨Piece.isRead_ofExpr (hexprs p.2 (List.of_mem_zip hp).2), fun p hp => by cases hp⟩
    · obtain ⟨v, parts, cipher, others, -, -, -, rfl⟩ := hwritten
      refine ⟨Piece.isRead_replacing p.2 cipher, fun q hq => ?_⟩
      obtain ⟨w, -, rfl⟩ := List.mem_map.1 hq
      exact Piece.isRead_further _ w
  intro p hp
  simp only [List.mem_append, List.mem_map, List.mem_flatMap] at hp
  rcases hp with (⟨q, hq, rfl⟩ | ⟨e, he, rfl⟩) | hp | ⟨q, hq, hp⟩
  · exact (hpiece q hq).1
  · exact Piece.isRead_ofExpr (hexprs e (List.mem_of_mem_drop he))
  · exact hadded p hp
  · exact (hpiece q hq).2 p hp

end RowPieces.IsEncrypted

end

/-! ### The column list -/

/-- The edit adds columns to the column list of an insertion. -/
def Edit.addsColumns : Edit → Bool
  | .insertColumns _ _ => true
  | _ => false

/-- The edit is of an encrypted column. -/
def Edit.encrypts : Edit → Bool
  | .encryption _ _ _ => true
  | _ => false

/-- The edit that adds some columns to a column list that is closed at a place, if there are any. -/
def Edit.ofColumns (closing : Option Nat) (names : List String) : List Edit :=
  if names.isEmpty then [] else closing.toList.map fun start => .insertColumns start names

theorem Edit.ofColumns_nil (closing : Option Nat) : ofColumns closing [] = [] := rfl

namespace Editing

/-- The name under which a column is written. -/
def writtenName (rule : EncryptRule) (tables : List TableRef) (c : ColumnRef) : String :=
  ((encryptColumn? rule tables c).map (·.cipherColumn)).getD c.name

/-- The columns that are added for a column. -/
def addedNames (rule : EncryptRule) (tables : List TableRef) (c : ColumnRef) : List String :=
  ((encryptColumn? rule tables c).map addedColumns).getD []

/-- The edit that renames a column, if it is encrypted. -/
def renaming? (rule : EncryptRule) (tables : List TableRef) (c : ColumnRef) : Option Edit :=
  (encryptColumn? rule tables c).map fun column => renameColumn c column.cipherColumn

variable {rule : EncryptRule} {tables : List TableRef} {r : Routed} {i : Insert}

theorem flatMap_addedColumns (rule : EncryptRule) (tables : List TableRef)
    (columns : List ColumnRef) (start : Nat) :
    (encryptedFrom rule tables start columns).flatMap (fun c => addedColumns c.2.2) =
      columns.flatMap (addedNames rule tables) := by
  induction columns generalizing start with
  | nil => rfl
  | cons c columns ih =>
      rw [List.flatMap_cons, addedNames]
      cases hc : encryptColumn? rule tables c with
      | none => rw [encryptedFrom_cons_of_none hc, ih]; rfl
      | some column => rw [encryptedFrom_cons_of_some hc, List.flatMap_cons, ih]; rfl

theorem map_renameColumn (rule : EncryptRule) (tables : List TableRef)
    (columns : List ColumnRef) (start : Nat) :
    (encryptedFrom rule tables start columns).map
        (fun c => renameColumn c.2.1 c.2.2.cipherColumn) =
      columns.filterMap (renaming? rule tables) := by
  induction columns generalizing start with
  | nil => rfl
  | cons c columns ih =>
      cases hc : encryptColumn? rule tables c with
      | none =>
          rw [encryptedFrom_cons_of_none hc, ih,
            List.filterMap_cons_none (by rw [renaming?, hc]; rfl)]
      | some column =>
          rw [encryptedFrom_cons_of_some hc, List.map_cons, ih,
            List.filterMap_cons_some (by rw [renaming?, hc]; rfl)]

/-- The column of a generated key. -/
def keyNames (r : Routed) : List String := (generatedKey? r).toList.map fun p => p.2.column

theorem keyColumn_eq_ofColumns (hinsert : r.sql.statement = .insert i) :
    keyColumn r = Edit.ofColumns i.columnsStop (keyNames r) := by
  rw [keyColumn, keyNames]
  cases hkey : generatedKey? r with
  | none => rfl
  | some p =>
      obtain ⟨hstatement, -, -⟩ := of_generatedKey? hkey
      cases hinsert.symm.trans hstatement
      rfl

theorem extendColumns?_append {more : List String} {before : List Edit} {start stop : Nat}
    {rows : List RowDraft} :
    extendColumns? more (before ++ [.insertRows start stop rows]) =
      (extendColumns? more before).map (· ++ [.insertRows start stop rows]) := by
  induction before with
  | nil => rfl
  | cons e before ih =>
      rw [List.cons_append]
      cases e with
      | insertColumns place columns => rfl
      | _ =>
          simp only [extendColumns?, ih, Option.map_map]
          rfl

theorem extendColumns?_of_front {more : List String} {front : List Edit}
    (hfront : ∀ e ∈ front, e.addsColumns = false) (edits : List Edit) :
    extendColumns? more (front ++ edits) = (extendColumns? more edits).map (front ++ ·) := by
  induction front with
  | nil => exact Option.map_id'.symm
  | cons e front ih =>
      obtain ⟨he, hothers⟩ := List.forall_mem_cons.1 hfront
      rw [List.cons_append]
      cases e with
      | insertColumns place columns => cases he
      | _ =>
          simp only [extendColumns?, ih hothers, Option.map_map]
          rfl

/-- The columns that edits add, and those edits that are of encrypted columns. -/
structure Adds (i : Insert) (names : List String) (edits : List Edit) : Prop where
  columns : edits.filter Edit.addsColumns = Edit.ofColumns i.columnsStop names
  encrypts : ∀ e ∈ edits, e.encrypts = false
  rows : ∀ e ∈ edits, e.writesRows = false

theorem ofColumns_spec {closing : Option Nat} {names : List String} :
    ∀ e ∈ Edit.ofColumns closing names,
      e.addsColumns = true ∧ e.encrypts = false ∧ e.writesRows = false := by
  intro e he
  unfold Edit.ofColumns at he
  split at he
  · cases he
  · obtain ⟨start, -, rfl⟩ := List.mem_map.1 he
    exact ⟨rfl, rfl, rfl⟩

theorem adds_append {front : List Edit} (names : List String)
    (hfront : ∀ e ∈ front, e.addsColumns = false ∧ e.encrypts = false ∧ e.writesRows = false) :
    Adds i names (front ++ Edit.ofColumns i.columnsStop names) where
  columns := by
    rw [List.filter_append, List.filter_eq_nil_iff.2 fun e he => by simp [(hfront e he).1],
      List.filter_eq_self.2 fun e he => (ofColumns_spec e he).1, List.nil_append]
  encrypts e he := by
    rcases List.mem_append.1 he with he | he
    · exact (hfront e he).2.1
    · exact (ofColumns_spec e he).2.1
  rows e he := by
    rcases List.mem_append.1 he with he | he
    · exact (hfront e he).2.2
    · exact (ofColumns_spec e he).2.2

theorem renaming?_spec {columns : List ColumnRef} :
    ∀ e ∈ columns.filterMap (renaming? rule tables),
      e.addsColumns = false ∧ e.encrypts = true ∧ e.writesRows = false := by
  intro e he
  obtain ⟨c, -, hc⟩ := List.mem_filterMap.1 he
  obtain ⟨column, -, rfl⟩ := Option.map_eq_some_iff.1 hc
  exact ⟨rfl, rfl, rfl⟩

namespace Adds

variable {names : List String} {columns : List ColumnRef} {before others : List Edit}
  {start stop : Nat} {rows : List RowDraft}

theorem filter_writesRows (h : Adds i names (before ++ others)) :
    (before ++ [Edit.insertRows start stop rows] ++
      (columns.filterMap (renaming? rule tables) ++ others)).filter Edit.writesRows =
        [.insertRows start stop rows] := by
  obtain ⟨hbefore, hothers⟩ := List.forall_mem_append.1 h.rows
  rw [List.filter_append, List.filter_append, List.filter_append,
    Lists.filter_eq_nil_of_false hbefore, Lists.filter_eq_nil_of_false hothers,
    Lists.filter_eq_nil_of_false fun e he => (renaming?_spec e he).2.2]
  rfl

theorem filter_encrypts (h : Adds i names (before ++ others)) :
    (before ++ [Edit.insertRows start stop rows] ++
      (columns.filterMap (renaming? rule tables) ++ others)).filter Edit.encrypts =
        columns.filterMap (renaming? rule tables) := by
  obtain ⟨hbefore, hothers⟩ := List.forall_mem_append.1 h.encrypts
  rw [List.filter_append, List.filter_append, List.filter_append,
    Lists.filter_eq_nil_of_false hbefore, Lists.filter_eq_nil_of_false hothers,
    List.filter_eq_self.2 fun e he => (renaming?_spec e he).2.1, List.append_nil]
  rfl

theorem filter_addsColumns (h : Adds i names (before ++ others)) :
    (before ++ [Edit.insertRows start stop rows] ++
      (columns.filterMap (renaming? rule tables) ++ others)).filter Edit.addsColumns =
        Edit.ofColumns i.columnsStop names := by
  rw [← h.columns, List.filter_append, List.filter_append, List.filter_append,
    Lists.filter_eq_nil_of_false fun e he => (renaming?_spec e he).1, List.filter_append]
  exact congrArg (· ++ _) (List.append_nil _)

end Adds

/-- **Columns are added behind those that are there**, or else by an edit of their own. -/
theorem addColumns_spec {f : RowFrame} {ys : List RowPieces} {front : List Edit}
    {names more : List String}
    (hfront : ∀ e ∈ front, e.addsColumns = false ∧ e.encrypts = false ∧ e.writesRows = false)
    (hbefore : f.before = front ++ Edit.ofColumns i.columnsStop names) {found : List Edit}
    {d' : Draft} (h : (addColumns i more).run.run (f.draft ys) = (.ok found, d')) :
    ∃ f' : RowFrame, d' = f'.draft ys ∧ f'.start = f.start ∧ f'.stop = f.stop ∧
      f'.binding = f.binding ∧ Adds i (names ++ more) (f'.before ++ found) := by
  unfold addColumns at h
  split at h
  · rename_i hempty
    obtain ⟨rfl, rfl⟩ := Stateful.pure_eq_ok.1 h
    rw [List.isEmpty_iff.1 hempty, List.append_nil]
    refine ⟨f, rfl, rfl, rfl, rfl, ?_⟩
    rw [List.append_nil, hbefore]
    exact adds_append names hfront
  · rename_i hmore
    obtain ⟨d, d₁, hget, h⟩ := Stateful.bind_eq_ok.1 h
    obtain ⟨rfl, rfl⟩ := Stateful.get_eq_ok.1 hget
    have hextend : extendColumns? more (f.draft ys).edits =
        (extendColumns? more (Edit.ofColumns i.columnsStop names)).map
          ((· ++ [.insertRows f.start f.stop (ys.map RowPieces.draft)]) ∘ (front ++ ·)) := by
      rw [RowFrame.draft, extendColumns?_append, hbefore,
        extendColumns?_of_front fun e he => (hfront e he).1, Option.map_map]
    have hkept : Adds i (names ++ more) (front ++ Edit.ofColumns i.columnsStop (names ++ more)) :=
      adds_append _ hfront
    rw [hextend] at h
    by_cases hnames : names = []
    · -- there is no such edit yet
      subst hnames
      cases hclosing : i.columnsStop with
      | none =>
          rw [hclosing] at h
          exact absurd h Stateful.throw_ne_ok
      | some start =>
          rw [hclosing] at h
          obtain ⟨rfl, rfl⟩ := Stateful.pure_eq_ok.1 h
          refine ⟨f, rfl, rfl, rfl, rfl, ?_⟩
          rw [Edit.ofColumns, List.nil_append, if_neg hmore, hclosing] at hkept
          rwa [hbefore, Edit.ofColumns_nil, List.append_nil]
    · cases hclosing : i.columnsStop with
      | none =>
          rw [hclosing, Edit.ofColumns, if_neg (by simpa using hnames)] at h
          exact absurd h Stateful.throw_ne_ok
      | some start =>
          rw [hclosing, Edit.ofColumns, if_neg (by simpa using hnames)] at h
          obtain ⟨u, d₂, hset, h⟩ := Stateful.bind_eq_ok.1 h
          obtain ⟨rfl, rfl⟩ := Stateful.pure_eq_ok.1 h
          rw [Edit.ofColumns, if_neg (by simp [hnames]), hclosing] at hkept
          refine ⟨⟨front ++ [.insertColumns start (names ++ more)], f.start, f.stop, f.binding,
            hkept.rows⟩, ?_, rfl, rfl, rfl, ?_⟩
          · exact (Stateful.modify_eq_ok.1 hset).symm
          · rwa [List.append_nil]

theorem encryptedValues_nil (parameters : List Value) (row : Nat) (rows : List ValueRow)
    (d : Draft) :
    (encryptedValues parameters [] row rows).run.run d = (.ok ⟨⟩, d) := by
  induction rows generalizing row with
  | nil => rfl
  | cons v rows ih => exact Stateful.bind_eq_ok.2 ⟨⟨⟩, d, rfl, ih (row + 1)⟩

/-- **The rows and the column list of an insertion.** -/
theorem encryptedRows_spec {f : RowFrame} {front : List Edit} {names : List String}
    (hnumbered : ∀ v ∈ i.rows, v.IsNumbered r.sql.parameters.length)
    (hfront : ∀ e ∈ front, e.addsColumns = false ∧ e.encrypts = false ∧ e.writesRows = false)
    (hbefore : f.before = front ++ Edit.ofColumns i.columnsStop names) {found : List Edit}
    {d' : Draft}
    (h : (encryptedRows rule tables r.sql.parameters i).run.run
      (f.draft (i.rows.zipIdx.map r.pieces)) = (.ok found, d')) :
    ∃ f' : RowFrame, ∃ ys others, d' = f'.draft ys ∧ f'.start = f.start ∧ f'.stop = f.stop ∧
      f'.binding = f.binding ∧ found = i.columns.filterMap (renaming? rule tables) ++ others ∧
      Adds i (names ++ i.columns.flatMap (addedNames rule tables)) (f'.before ++ others) ∧
      List.Forall₂ (fun x y => (r.pieces x).IsEncrypted rule tables r.sql.parameters i.columns
        x.1.exprs y) i.rows.zipIdx ys := by
  have hrenamed := map_renameColumn rule tables i.columns 0
  have hadded := flatMap_addedColumns rule tables i.columns 0
  unfold encryptedRows at h
  simp only at h
  split at h
  · rename_i hempty
    obtain ⟨rfl, rfl⟩ := Stateful.pure_eq_ok.1 h
    have hnone : encryptedFrom rule tables 0 i.columns = [] := List.isEmpty_iff.1 hempty
    rw [hnone] at hrenamed hadded
    have hrun := encryptedValues_nil r.sql.parameters 0 i.rows
      (f.draft (i.rows.zipIdx.map r.pieces))
    rw [← hnone] at hrun
    obtain ⟨ys, hys, hall⟩ :=
      @encryptedValues_spec rule tables i.columns r f [] i.rows hnumbered _ _ hrun
    refine ⟨f, ys, [], hys, rfl, rfl, rfl, ?_, ?_, hall⟩
    · rw [← hrenamed]
      rfl
    · rw [← hadded, List.append_nil, hbefore, List.flatMap_nil, List.append_nil]
      exact adds_append names hfront
  · obtain ⟨others, d₁, hcolumns, h⟩ := Stateful.bind_eq_ok.1 h
    obtain ⟨f', rfl, hstart, hstop, hbinding, hadds⟩ := addColumns_spec hfront hbefore hcolumns
    obtain ⟨d, d₂, hget, h⟩ := Stateful.bind_eq_ok.1 h
    obtain ⟨rfl, rfl⟩ := Stateful.get_eq_ok.1 hget
    have hcount : draftedRows? (f'.draft (i.rows.zipIdx.map r.pieces)).edits =
        some i.rows.length := by
      rw [RowFrame.draft, draftedRows?_append f'.quiet, List.length_map, List.length_map,
        List.length_zipIdx]
    rw [hcount] at h
    obtain ⟨u, d₃, hvalues, h⟩ := Stateful.bind_eq_ok.1 h
    obtain ⟨rfl, rfl⟩ := Stateful.pure_eq_ok.1 h
    rw [List.take_length] at hvalues
    obtain ⟨ys, hys, hall⟩ :=
      @encryptedValues_spec rule tables i.columns r f' [] i.rows hnumbered _ _ hvalues
    refine ⟨f', ys, others, hys, hstart, hstop, hbinding, ?_, ?_, hall⟩
    · rw [← hrenamed]
      rfl
    · rw [← hadded]
      exact hadds

/-- In an insertion with `VALUES` only the rows and the column list are encrypted. -/
theorem encryption_insert_values (hinsert : r.sql.statement = .insert i) (hset : i.set = none)
    {found : List Edit} {d d' : Draft}
    (h : (encryption rule r.sql).run.run d = (.ok found, d')) :
    (encryptedRows rule [i.table] r.sql.parameters i).run.run d = (.ok found, d') := by
  unfold encryption at h
  rw [hinsert] at h
  obtain ⟨conditions, d₁, hconditions, h⟩ := Stateful.bind_eq_ok.1 h
  obtain ⟨others, d₂, hothers, h⟩ := Stateful.bind_eq_ok.1 h
  obtain ⟨rfl, rfl⟩ := Stateful.pure_eq_ok.1 h
  obtain ⟨rfl, rfl⟩ := Stateful.pure_eq_ok.1 hconditions
  simp only [encryptedParts, hset, Statement.tables] at hothers
  obtain ⟨edits, d₃, hedits, hothers⟩ := Stateful.bind_eq_ok.1 hothers
  obtain ⟨u, d₄, hcheck, hothers⟩ := Stateful.bind_eq_ok.1 hothers
  obtain ⟨rfl, rfl⟩ := Stateful.pure_eq_ok.1 hothers
  obtain ⟨-, rfl⟩ := Stateful.liftOutcome_eq_ok.1 hcheck
  exact hedits

end Editing

/-! ### Insertions -/

/-- **What all editors make of an insertion with `VALUES`**: its rows are encrypted, written in
their place and bound each by itself, the encrypted columns are renamed, and the other columns are
added behind the one of a generated key. -/
structure Routed.WritesEncrypted (rule : Rule) (r : Routed) (i : Insert) (d : Draft)
    (ys : List RowPieces) : Prop where
  rows : List.Forall₂ (fun x y => (r.pieces x).IsEncrypted rule.encrypt [i.table] r.sql.parameters
    i.columns x.1.exprs y) i.rows.zipIdx ys
  written : ∃ start stop, i.valuesSpan? = some (start, stop) ∧
    d.edits.filter Edit.writesRows = [.insertRows start stop (ys.map RowPieces.draft)]
  bound : ∃ b, d.binding = .grouped b ∧ b.rows = ys.map RowPieces.binding ∧
    b.trailing = r.sql.parameters.drop i.rowParameterCount
  renamed : d.edits.filter Edit.encrypts =
    i.columns.filterMap (Editing.renaming? rule.encrypt [i.table])
  added : d.edits.filter Edit.addsColumns = Edit.ofColumns i.columnsStop
    (Editing.keyNames r ++ i.columns.flatMap (Editing.addedNames rule.encrypt [i.table]))

namespace Routed

variable {rule : Rule} {r : Routed} {i : Insert}

theorem isSkipped_encryption (hinsert : r.sql.statement = .insert i)
    (hencrypt : (rule.encrypt.columns? i.table.name).isSome = true) :
    Editor.encryption.isSkipped rule r = false := by
  have hne : rule.encrypt.isEmpty = false := by
    cases hempty : rule.encrypt.isEmpty with
    | false => rfl
    | true =>
        have hentries : rule.encrypt.tables.entries = [] := List.isEmpty_iff.1 hempty
        rw [EncryptRule.columns?, Dictionary.get?, hentries] at hencrypt
        cases hencrypt
  simp [Editor.isSkipped, Editor.servesMerging, Editor.applies, Editing.hasEncryptedTable, hinsert,
    Statement.tables, hne, hencrypt]

theorem leadingEdits_of_values (rule : Rule) (hinsert : r.sql.statement = .insert i)
    (hset : i.set = none) :
    ∃ front, Editor.leadingEdits rule r i =
        front ++ Edit.ofColumns i.columnsStop (Editing.keyNames r) ∧
      ∀ e ∈ front, e.addsColumns = false ∧ e.encrypts = false ∧ e.writesRows = false := by
  refine ⟨_, by rw [Editor.leadingEdits, hset, ← Editing.keyColumn_eq_ofColumns hinsert]; rfl, ?_⟩
  intro e he
  split at he
  · cases List.mem_singleton.1 he
    exact ⟨rfl, rfl, rfl⟩
  · cases he

/-- In an insertion with `VALUES` no key is assigned. -/
theorem keyAssignment_values (hinsert : r.sql.statement = .insert i) (hset : i.set = none) :
    Editor.keyAssignment.edits rule r = pure [] := by
  change Editing.keyAssignment r = pure []
  unfold Editing.keyAssignment
  cases hkey : Editing.generatedKey? r with
  | none => rfl
  | some p =>
      obtain ⟨hstatement, -, -⟩ := Editing.of_generatedKey? hkey
      cases hinsert.symm.trans hstatement
      simp only [hset]

/-- The rows that are written anew and bound alike are the rows of a frame. -/
theorem exists_frame {d : Draft} {start stop : Nat} {found : List Edit}
    (hnumbered : ∀ v ∈ i.rows, v.IsNumbered r.sql.parameters.length)
    (hquiet : ∀ e ∈ d.edits, e.writesRows = false)
    (hfound : found = [.insertRows start stop (i.rows.zipIdx.map (Editing.draftOf r))])
    (hbinding : d.binding.IsOfRows r i) :
    ∃ f : RowFrame, f.before = d.edits ∧ f.start = start ∧ f.stop = stop ∧
      f.binding.trailing = r.sql.parameters.drop i.rowParameterCount ∧
      { d with edits := d.edits ++ found } = f.draft (i.rows.zipIdx.map r.pieces) := by
  obtain ⟨g, hg, hrows, htrailing⟩ := hbinding
  refine ⟨⟨d.edits, start, stop, g, hquiet⟩, rfl, rfl, rfl, htrailing, ?_⟩
  have hdrafts : (i.rows.zipIdx.map r.pieces).map RowPieces.draft =
      i.rows.zipIdx.map (Editing.draftOf r) := by
    rw [List.map_map]
    exact List.map_congr_left fun x _ => draft_pieces r x
  have hbound : (i.rows.zipIdx.map r.pieces).map RowPieces.binding = g.rows := by
    rw [List.map_map, hrows]
    exact List.map_congr_left fun x hx =>
      binding_pieces (hnumbered x.1 (List.fst_mem_of_mem_zipIdx hx))
  rw [RowFrame.draft, hdrafts, hbound, hfound, hg]

/-- Behind the edits that come first all rows are written anew. -/
theorem exists_frame_of_step (hinsert : r.sql.statement = .insert i) (hset : i.set = none)
    (hvalues : i.values ≠ []) (hencrypt : (rule.encrypt.columns? i.table.name).isSome = true)
    (hnumbered : ∀ v ∈ i.rows, v.IsNumbered r.sql.parameters.length) {b : Binding} {d : Draft}
    (hbinding : b = .grouped (GroupedBinding.ofInsert i r.sql.parameters))
    (h : Editor.insertRows.Step rule r ⟨Editor.leadingEdits rule r i, b⟩ d) :
    ∃ f : RowFrame, ∃ front,
      (∀ e ∈ front, e.addsColumns = false ∧ e.encrypts = false ∧ e.writesRows = false) ∧
      f.before = front ++ Edit.ofColumns i.columnsStop (Editing.keyNames r) ∧
      i.valuesSpan? = some (f.start, f.stop) ∧
      f.binding.trailing = r.sql.parameters.drop i.rowParameterCount ∧
      d = f.draft (i.rows.zipIdx.map r.pieces) := by
  obtain ⟨start, stop, hspan⟩ := exists_valuesSpan? hvalues
  obtain ⟨front, hleading, hfront⟩ := leadingEdits_of_values rule hinsert hset
  have hvaluesInsert : Editing.valuesInsert? r = some i := by
    rw [Editing.valuesInsert?, hinsert]
    simp [hset]
  rcases h with ⟨hskipped, -⟩ | ⟨-, found, d₁, hfound, rfl⟩
  · have hneeded : Editor.isSkipped rule r .insertRows = false := by
      simp [Editor.isSkipped, Editor.servesMerging, Editor.applies, Editor.writesRowsAnew,
        hvaluesInsert, hspan, hencrypt]
    rw [hneeded] at hskipped
    cases hskipped
  obtain ⟨hrows, hedits, hgrouped⟩ :=
    Editing.insertRows_spec hvaluesInsert hspan (d := ⟨Editor.leadingEdits rule r i, b⟩) hbinding
      hfound
  have hbefore : d₁.edits = front ++ Edit.ofColumns i.columnsStop (Editing.keyNames r) :=
    hedits.trans hleading
  have hadds := Editing.adds_append (i := i) (Editing.keyNames r) hfront
  rw [← hbefore] at hadds
  obtain ⟨f, hf, rfl, rfl, htrailing, hframe⟩ := exists_frame hnumbered hadds.rows hrows hgrouped
  exact ⟨f, front, hfront, hf.trans hbefore, hspan, htrailing, hframe⟩

/-- **The draft of an insertion into a table with encrypted columns.**  Its rows are written anew,
and then they are encrypted where they are. -/
theorem writesEncrypted_of_insert (hinsert : r.sql.statement = .insert i) (hset : i.set = none)
    (hvalues : i.values ≠ []) (hencrypt : (rule.encrypt.columns? i.table.name).isSome = true)
    (hmarkers : i.markers = List.range r.sql.parameters.length) {u : PUnit}
    (h : (Editor.runAll rule r Editor.all).run.run (Draft.start rule r) =
      (.ok u, r.draft rule)) : ∃ ys, r.WritesEncrypted rule i (r.draft rule) ys := by
  have hnumbered := i.isNumbered_of_mem_rows hmarkers
  have hstart : (Draft.start rule r).binding =
      .grouped (GroupedBinding.ofInsert i r.sql.parameters) := by
    rw [Draft.start, Draft.startBinding, hinsert]
    simp [hset, hencrypt]
  rw [Editor.runAll_insert hinsert, Draft.start_edits, List.nil_append,
    Editor.runAll_cons_of_pure (keyAssignment_values hinsert hset), ite_self,
    List.append_nil] at h
  obtain ⟨d₁, hrows, h⟩ := Editor.runAll_cons_eq_ok h
  obtain ⟨d₂, hencryption, h⟩ := Editor.runAll_cons_eq_ok h
  obtain ⟨-, hdraft⟩ := Stateful.pure_eq_ok.1 h
  obtain ⟨f, front, hfront, hbefore, hspan, htrailing, rfl⟩ :=
    exists_frame_of_step hinsert hset hvalues hencrypt hnumbered hstart hrows
  rcases hencryption with ⟨hskipped, -⟩ | ⟨-, found, d, hfound, rfl⟩
  · rw [isSkipped_encryption hinsert hencrypt] at hskipped
    cases hskipped
  obtain ⟨f', ys, others, rfl, hfirst, hlast, hsame, rfl, hcolumns, hall⟩ :=
    Editing.encryptedRows_spec hnumbered hfront hbefore
      (Editing.encryption_insert_values hinsert hset hfound)
  have hplace : i.valuesSpan? = some (f'.start, f'.stop) := by rw [hspan, hfirst, hlast]
  have hbound : f'.binding.trailing = r.sql.parameters.drop i.rowParameterCount := by
    rw [hsame, htrailing]
  rw [← hdraft]
  exact ⟨ys, hall, ⟨_, _, hplace, hcolumns.filter_writesRows⟩, ⟨_, rfl, rfl, hbound⟩,
    hcolumns.filter_encrypts, hcolumns.filter_addsColumns⟩

end Routed

end ShardedSql
