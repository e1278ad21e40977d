/-
**Rows in which columns are encrypted.**

A row that is written anew is encrypted value by value.  How a value is written and what is bound
for it change together: a literal is written as another one, a marker stays and gets another
parameter, and each further value is put behind the row in the way of the value that it is for.  So
a row stays a list of pieces that are read one after another.

Main definitions:

* `ShardedSql.Piece`, `ShardedSql.RowPieces` — **a value of a row, and a row, as they are written,
  bound and read**;
* `ShardedSql.RowFrame` — what stays the same while rows are encrypted;
* `ShardedSql.Expr.IsWrittenAs` — what becomes of an expression that is given to a column;
* `ShardedSql.RowPieces.IsEncrypted` — what becomes of a row.

Main results:

* `ShardedSql.Editing.encryptedValue_spec`, `ShardedSql.Editing.encryptedColumns_spec` — one value,
  and the values of a row;
* `ShardedSql.Editing.encryptedValues_spec` — **all rows**.
-/

import ShardedSql.Proofs.Binding
import ShardedSql.Proofs.Editor
import ShardedSql.Proofs.Encryption.Stored

set_option relaxedAutoImplicit false
set_option autoImplicit false

namespace ShardedSql

open Filling

/-! ### Pieces -/

/-- A value of a row: how it is written, what is bound for it, and what is read there. -/
structure Piece where
  value : RowValue
  bound : List Value
  cell : Cell

namespace Piece

/-- Reading the value takes just what is bound for it. -/
def IsRead (p : Piece) : Prop := Consumes p.value.fill p.bound p.cell

/-- An expression as the statement has it. -/
def ofExpr (parameters : List Value) (e : Expr) : Piece :=
  ⟨.expr e, e.ownParameter parameters, e.cell parameters⟩

/-- Another value in the place of an expression: a literal for a literal, and a parameter for a
marker. -/
def replacing (e : Expr) (v : Value) : Piece :=
  if e.isMarker then ⟨.expr e, [v], .value v⟩ else ⟨.literal v, [], .value v⟩

/-- A further value, bound as a parameter or written as a literal. -/
def further (isBound : Bool) (v : Value) : Piece :=
  if isBound then ⟨.marker, [v], .value v⟩ else ⟨.literal v, [], .value v⟩

variable {parameters : List Value} {e : Expr}

theorem isRead_ofExpr (h : ∀ index ∈ e.marker?, index < parameters.length) :
    (ofExpr parameters e).IsRead := RowValue.consumes_expr h

theorem isRead_replacing (e : Expr) (v : Value) : (replacing e v).IsRead := by
  cases e with
  | literal w start stop => exact .pure _
  | marker index start stop => exact (Consumes.next v).map _
  | raw text start stop => exact .pure _

theorem isRead_further (isBound : Bool) (v : Value) : (further isBound v).IsRead := by
  cases isBound with
  | true => exact (Consumes.next v).map _
  | false => exact .pure _

theorem cell_further (isBound : Bool) (v : Value) : (further isBound v).cell = .value v := by
  cases isBound <;> rfl

theorem cell_replacing (e : Expr) (v : Value) : (replacing e v).cell = .value v := by
  cases e <;> rfl

/-- A single parameter is bound for a marker, and none for any other expression. -/
theorem length_bound_ofExpr (h : ∀ index ∈ e.marker?, index < parameters.length) :
    (ofExpr parameters e).bound.length = markerCount [e] := by
  cases e with
  | literal v start stop => rfl
  | marker index start stop =>
      rw [ofExpr, Expr.ownParameter, Expr.marker?, Option.bind_some,
        List.getElem?_eq_getElem (h index rfl)]
      rfl
  | raw text start stop => rfl

theorem length_bound_replacing (e : Expr) (v : Value) :
    (replacing e v).bound.length = markerCount [e] := by
  cases e <;> rfl

end Piece

/-- A row: the values in the places of its expressions, those behind them, and its nodes. -/
structure RowPieces where
  own : List Piece
  added : List Piece
  nodes : List DataNode

namespace RowPieces

/-- The row as it is written. -/
def draft (x : RowPieces) : RowDraft := ⟨(x.own ++ x.added).map Piece.value, x.nodes⟩

/-- The row as it is bound. -/
def binding (x : RowPieces) : RowBinding := ⟨x.own.flatMap Piece.bound, x.added.flatMap Piece.bound⟩

/-- The row as it is read. -/
def cells (x : RowPieces) : List Cell := (x.own ++ x.added).map Piece.cell

/-- **A row consumes what is bound for it.** -/
theorem consumes {x : RowPieces} (h : ∀ p ∈ x.own ++ x.added, p.IsRead) :
    Consumes x.draft.fill x.binding.parameters x.cells := by
  rw [RowDraft.fill, draft, List.mapM_map, RowBinding.parameters, binding, ← List.flatMap_append]
  exact Consumes.mapM h

end RowPieces

/-! ### Rows of a draft -/

/-- What stays the same while rows are encrypted: the edits in front of them, the place where they
are written, and the parameters behind them. -/
structure RowFrame where
  before : List Edit
  start : Nat
  stop : Nat
  binding : GroupedBinding
  quiet : ∀ e ∈ before, e.writesRows = false

/-- The draft with some rows. -/
def RowFrame.draft (f : RowFrame) (rows : List RowPieces) : Draft where
  edits := f.before ++ [.insertRows f.start f.stop (rows.map RowPieces.draft)]
  binding := .grouped { f.binding with rows := rows.map RowPieces.binding }

namespace Editing

variable {f : RowFrame} {done rest : List RowPieces} {own added pre post : List Piece}
  {nodes : List DataNode} {p q : Piece}

theorem changeRow_append {before : List Edit} (hquiet : ∀ e ∈ before, e.writesRows = false)
    (row : Nat) (change : RowDraft → RowDraft) (start stop : Nat) (rows : List RowDraft) :
    changeRow row change (before ++ [.insertRows start stop rows]) =
      before ++ [.insertRows start stop (rows.modify row change)] := by
  induction before with
  | nil => rfl
  | cons e before ih =>
      obtain ⟨he, hbefore⟩ := List.forall_mem_cons.1 hquiet
      rw [List.cons_append, List.cons_append, ← ih hbefore]
      cases e with
      | insertRows start stop rows => cases he
      | _ => rfl

theorem draftedRows?_append {before : List Edit} (hquiet : ∀ e ∈ before, e.writesRows = false)
    (start stop : Nat) (rows : List RowDraft) :
    draftedRows? (before ++ [.insertRows start stop rows]) = some rows.length := by
  induction before with
  | nil => rfl
  | cons e before ih =>
      obtain ⟨he, hbefore⟩ := List.forall_mem_cons.1 hquiet
      rw [List.cons_append, ← ih hbefore]
      cases e with
      | insertRows start stop rows => cases he
      | _ => rfl

end Editing

namespace RowFrame

variable {f : RowFrame} {done rest : List RowPieces} {x y : RowPieces}

/-- A row that is written differently and bound differently. -/
theorem draft_modify {change : RowDraft → RowDraft} {rebind : RowBinding → RowBinding}
    (hwritten : change x.draft = y.draft) (hbound : rebind x.binding = y.binding) :
    Draft.mk (Editing.changeRow done.length change (f.draft (done ++ x :: rest)).edits)
        (.grouped { f.binding with
          rows := ((done ++ x :: rest).map RowPieces.binding).modify done.length rebind }) =
      f.draft (done ++ y :: rest) := by
  simp only [draft, Editing.changeRow_append f.quiet, Lists.modify_map_append hwritten,
    Lists.modify_map_append hbound]

/-- A row that is written differently and bound as before. -/
theorem draft_changeRow {change : RowDraft → RowDraft} (hwritten : change x.draft = y.draft)
    (hbound : x.binding = y.binding) :
    { f.draft (done ++ x :: rest) with
      edits := Editing.changeRow done.length change (f.draft (done ++ x :: rest)).edits } =
        f.draft (done ++ y :: rest) := by
  have hsame : id x.binding = y.binding := hbound
  rw [← draft_modify hwritten hsame, List.modify_id]
  rfl

/-- A row that is bound differently and written as before. -/
theorem draft_rebind {rebind : RowBinding → RowBinding} (hwritten : x.draft = y.draft)
    (hbound : rebind x.binding = y.binding) :
    { f.draft (done ++ x :: rest) with
      binding := .grouped { f.binding with
        rows := ((done ++ x :: rest).map RowPieces.binding).modify done.length rebind } } =
      f.draft (done ++ y :: rest) := by
  have hsame : id x.draft = y.draft := hwritten
  rw [← draft_modify hsame hbound, draft, Editing.changeRow_append f.quiet, List.modify_id]

end RowFrame

namespace Editing

variable {f : RowFrame} {done rest : List RowPieces} {own added pre post : List Piece}
  {nodes : List DataNode} {p q : Piece}

/-- A value in the place of another one for which as much is bound. -/
theorem run_setValue (hbound : p.bound = q.bound) :
    (setValue done.length pre.length p.value).run.run
        (f.draft (done ++ ⟨pre ++ q :: post, added, nodes⟩ :: rest)) =
      (.ok ⟨⟩, f.draft (done ++ ⟨pre ++ p :: post, added, nodes⟩ :: rest)) := by
  refine Prod.ext rfl (RowFrame.draft_changeRow ?_ ?_)
  · simp [RowPieces.draft]
  · simp [RowPieces.binding, hbound]

/-- Another parameter in the place of one. -/
theorem run_replace {v w : Value} {b : GroupedBinding} (hvalue : p.value = q.value)
    (hq : q.bound = [v]) (hp : p.bound = [w])
    (hb : (f.draft (done ++ ⟨pre ++ q :: post, added, nodes⟩ :: rest)).binding = .grouped b) :
    (bindGrouped (b.replace done.length (pre.flatMap Piece.bound).length w)).run.run
        (f.draft (done ++ ⟨pre ++ q :: post, added, nodes⟩ :: rest)) =
      (.ok ⟨⟩, f.draft (done ++ ⟨pre ++ p :: post, added, nodes⟩ :: rest)) := by
  cases hb
  refine Prod.ext rfl (RowFrame.draft_rebind ?_ ?_)
  · simp [RowPieces.draft, hvalue]
  · simp [RowPieces.binding, hq, hp]

/-- A further value for which nothing is bound. -/
theorem run_addValue (hbound : p.bound = []) :
    (addValue done.length p.value).run.run (f.draft (done ++ ⟨own, added, nodes⟩ :: rest)) =
      (.ok ⟨⟩, f.draft (done ++ ⟨own, added ++ [p], nodes⟩ :: rest)) := by
  refine Prod.ext rfl (RowFrame.draft_changeRow ?_ ?_)
  · simp [RowPieces.draft]
  · simp [RowPieces.binding, hbound]

/-- A further value that is bound as a parameter. -/
theorem run_addMarker (v : Value) :
    (addMarker done.length v).run.run (f.draft (done ++ ⟨own, added, nodes⟩ :: rest)) =
      (.ok ⟨⟩, f.draft (done ++ ⟨own, added ++ [⟨.marker, [v], .value v⟩], nodes⟩ :: rest)) := by
  refine Prod.ext rfl (RowFrame.draft_modify ?_ ?_)
  · simp [RowPieces.draft]
  · simp [RowPieces.binding]

/-- Further values, each put behind the row in the same way. -/
theorem run_further {isBound : Bool} {add : Value → Editing PUnit}
    (hadd : ∀ v added, (add v).run.run (f.draft (done ++ ⟨own, added, nodes⟩ :: rest)) =
      (.ok ⟨⟩, f.draft (done ++ ⟨own, added ++ [.further isBound v], nodes⟩ :: rest)))
    (vs : List Value) (added : List Piece) :
    (vs.forM add).run.run (f.draft (done ++ ⟨own, added, nodes⟩ :: rest)) =
      (.ok ⟨⟩,
        f.draft (done ++ ⟨own, added ++ vs.map (.further isBound), nodes⟩ :: rest)) := by
  induction vs generalizing added with
  | nil =>
      rw [List.map_nil, List.append_nil]
      rfl
  | cons v vs ih =>
      rw [List.map_cons, List.append_cons added]
      change (add v >>= fun _ => vs.forM add).run.run _ = _
      exact Stateful.bind_eq_ok.2 ⟨⟨⟩, _, hadd v added, ih _⟩

/-- What is added for a value of an encrypted column, however it is added. -/
theorem run_added {isBound : Bool} {add : Value → Editing PUnit}
    (hadd : ∀ v added, (add v).run.run (f.draft (done ++ ⟨own, added, nodes⟩ :: rest)) =
      (.ok ⟨⟩, f.draft (done ++ ⟨own, added ++ [.further isBound v], nodes⟩ :: rest)))
    {assisted : Option Value} {keeps : Bool} {v : Value} {u : PUnit} {d' : Draft}
    (h : (do
        assisted.toList.forM add
        if keeps then add v else pure ⟨⟩ : Editing PUnit).run.run
      (f.draft (done ++ ⟨own, added, nodes⟩ :: rest)) = (.ok u, d')) :
    d' = f.draft (done ++ ⟨own, added ++ (assisted.toList ++ if keeps then [v] else []).map
      (.further isBound), nodes⟩ :: rest) := by
  obtain ⟨u₁, d₁, hassisted, h⟩ := Stateful.bind_eq_ok.1 h
  rw [run_further hadd] at hassisted
  cases hassisted
  rw [List.map_append, ← List.append_assoc]
  cases keeps with
  | true =>
      rw [if_pos rfl, hadd] at h
      cases h
      rfl
  | false =>
      rw [if_neg Bool.false_ne_true] at h
      obtain ⟨-, rfl⟩ := Stateful.pure_eq_ok.1 h
      rw [if_neg Bool.false_ne_true, List.map_nil, List.append_nil]

/-- **A value of an encrypted column** is replaced by its cipher, and what is compared with and what
is kept of it are put behind the row. -/
theorem encryptedValue_spec {parameters : List Value} {r : ValueRow} {e : Expr}
    {column : EncryptColumn} (he : r.exprs[pre.length]? = some e)
    (hplace : ∀ n ∈ e.marker?, n - r.offset = (pre.flatMap Piece.bound).length) {u : PUnit}
    {d' : Draft}
    (h : (encryptedValue parameters done.length r pre.length column).run.run
      (f.draft (done ++ ⟨pre ++ .ofExpr parameters e :: post, added, nodes⟩ :: rest)) =
        (.ok u, d')) :
    ∃ v parts cipher others, e.resolve parameters = some v ∧ column.stored v = .ok parts ∧
      parts.map Prod.snd = cipher :: others ∧
      d' = f.draft (done ++ ⟨pre ++ .replacing e cipher :: post,
        added ++ others.map (.further e.isMarker), nodes⟩ :: rest) := by
  unfold encryptedValue at h
  rw [he] at h
  cases e with
  | literal v start stop =>
      obtain ⟨cipher, d₁, hcipher, h⟩ := Stateful.bind_eq_ok.1 h
      obtain ⟨hencrypt, rfl⟩ := Stateful.liftOutcome_eq_ok.1 hcipher
      obtain ⟨u₁, d₂, hset, h⟩ := Stateful.bind_eq_ok.1 h
      obtain ⟨assisted, d₃, hassisted, h⟩ := Stateful.bind_eq_ok.1 h
      obtain ⟨hassist, rfl⟩ := Stateful.liftOutcome_eq_ok.1 hassisted
      obtain ⟨parts, hparts, hvalues⟩ := EncryptColumn.exists_stored hencrypt hassist
      refine ⟨v, parts, cipher, _, rfl, hparts, hvalues, ?_⟩
      -- a literal takes no parameter, and neither does its cipher
      cases (run_setValue (p := .replacing (.literal v start stop) cipher)
        (q := .ofExpr parameters (.literal v start stop)) rfl).symm.trans hset
      exact run_added (fun w more => run_addValue (p := .further false w) rfl) h
  | marker n start stop =>
      obtain ⟨v, d₁, hv, h⟩ := Stateful.bind_eq_ok.1 h
      obtain ⟨hparameter, rfl⟩ := Stateful.liftOutcome_eq_ok.1 hv
      obtain ⟨b, d₂, hb, h⟩ := Stateful.bind_eq_ok.1 h
      obtain ⟨cipher, d₃, hcipher, h⟩ := Stateful.bind_eq_ok.1 h
      obtain ⟨hencrypt, rfl⟩ := Stateful.liftOutcome_eq_ok.1 hcipher
      obtain ⟨u₁, d₄, hbind, h⟩ := Stateful.bind_eq_ok.1 h
      obtain ⟨assisted, d₅, hassisted, h⟩ := Stateful.bind_eq_ok.1 h
      obtain ⟨hassist, rfl⟩ := Stateful.liftOutcome_eq_ok.1 hassisted
      obtain ⟨hbound, rfl⟩ := of_requireGrouped hb
      obtain ⟨parts, hparts, hvalues⟩ := EncryptColumn.exists_stored hencrypt hassist
      rw [parameter_eq_ok] at hparameter
      refine ⟨v, parts, cipher, _, hparameter, hparts, hvalues, ?_⟩
      -- the marker has its parameter behind those of the values before it
      have howned : (Piece.ofExpr parameters (.marker n start stop)).bound = [v] := by
        simp [Piece.ofExpr, Expr.ownParameter, Expr.marker?, hparameter]
      rw [hplace n rfl] at hbind
      cases (run_replace (p := .replacing (.marker n start stop) cipher)
        (q := .ofExpr parameters (.marker n start stop)) rfl howned rfl hbound).symm.trans hbind
      exact run_added (fun w more => run_addMarker w) h
  | raw text start stop => exact absurd h Stateful.throw_ne_ok

end Editing

/-! ### Rows column by column -/

/-- What becomes of an expression that is given to a column: it stays where the column is not
encrypted, and otherwise its cipher replaces it and the other values are put behind the row. -/
def Expr.IsWrittenAs (rule : EncryptRule) (tables : List TableRef) (parameters : List Value)
    (c : ColumnRef) (e : Expr) (x : Piece × List Piece) : Prop :=
  match Editing.encryptColumn? rule tables c with
  | none => x = (.ofExpr parameters e, [])
  | some column => ∃ v parts cipher others, e.resolve parameters = some v ∧
      column.stored v = .ok parts ∧ parts.map Prod.snd = cipher :: others ∧
      x = (.replacing e cipher, others.map (.further e.isMarker))

/-- The values of a row are written as its columns ask for; those without a column stay. -/
def RowPieces.IsEncrypted (rule : EncryptRule) (tables : List TableRef) (parameters : List Value)
    (columns : List ColumnRef) (exprs : List Expr) (x y : RowPieces) : Prop :=
  ∃ ps, List.Forall₂ (fun p q => p.2.IsWrittenAs rule tables parameters p.1 q)
      (columns.zip exprs) ps ∧
    y = ⟨ps.map Prod.fst ++ (exprs.drop columns.length).map (.ofExpr parameters),
      x.added ++ ps.flatMap Prod.snd, x.nodes⟩

/-- The marker behind some expressions of a row has the number behind theirs. -/
theorem ValueRow.IsNumbered.marker_eq {r : ValueRow} {total : Nat} (h : r.IsNumbered total)
    {front rest : List Expr} {e : Expr} (hexprs : r.exprs = front ++ e :: rest) :
    ∀ n ∈ e.marker?, n = r.offset + markerCount front ∧ n < total := by
  intro n hn
  have hmarkers := h.markers
  have htotal := h.le_total
  have hfront := length_filterMap_marker? front
  rw [hexprs, List.filterMap_append, List.filterMap_cons_some hn] at hmarkers
  have hlength := congrArg List.length hmarkers
  rw [List.length_append, hfront, List.length_cons, List.length_range'] at hlength
  have hget : (front.filterMap Expr.marker? ++ n :: rest.filterMap Expr.marker?)[markerCount front]? =
      (n :: rest.filterMap Expr.marker?)[markerCount front -
        (front.filterMap Expr.marker?).length]? := List.getElem?_append_right hfront.le
  rw [hmarkers, hfront, Nat.sub_self, List.getElem?_range' (by omega)] at hget
  have hnumber := Option.some.inj hget
  omega

namespace Editing

variable {rule : EncryptRule} {tables : List TableRef} {parameters : List Value} {f : RowFrame}
  {done rest : List RowPieces} {added pre : List Piece} {nodes : List DataNode} {r : ValueRow}

/-- The encrypted columns of a part of a column list, with their places in the whole list. -/
def encryptedFrom (rule : EncryptRule) (tables : List TableRef) (start : Nat)
    (columns : List ColumnRef) : List (Nat × ColumnRef × EncryptColumn) :=
  (columns.zipIdx start).filterMap fun p =>
    (encryptColumn? rule tables p.1).map fun column => (p.2, p.1, column)

theorem encryptedFrom_cons_of_none {c : ColumnRef} (hc : encryptColumn? rule tables c = none)
    (start : Nat) (columns : List ColumnRef) :
    encryptedFrom rule tables start (c :: columns) =
      encryptedFrom rule tables (start + 1) columns := by
  rw [encryptedFrom, List.zipIdx_cons, List.filterMap_cons_none (by rw [hc]; rfl)]
  rfl

theorem encryptedFrom_cons_of_some {c : ColumnRef} {column : EncryptColumn}
    (hc : encryptColumn? rule tables c = some column) (start : Nat) (columns : List ColumnRef) :
    encryptedFrom rule tables start (c :: columns) =
      (start, c, column) :: encryptedFrom rule tables (start + 1) columns := by
  rw [encryptedFrom, List.zipIdx_cons, List.filterMap_cons_some (by rw [hc]; rfl)]
  rfl

/-- Columns that the row has no values for are not encrypted. -/
theorem encryptedColumns_beyond {columns : List ColumnRef} {start row : Nat}
    (hbeyond : r.exprs.length ≤ start) {u : PUnit} {d d' : Draft}
    (h : ((encryptedFrom rule tables start columns).forM fun c =>
      encryptedValue parameters row r c.1 c.2.2).run.run d = (.ok u, d')) : d' = d := by
  induction columns generalizing start with
  | nil =>
      obtain ⟨-, rfl⟩ := Stateful.pure_eq_ok.1 h
      rfl
  | cons c columns ih =>
      cases hc : encryptColumn? rule tables c with
      | none =>
          rw [encryptedFrom_cons_of_none hc] at h
          exact ih (Nat.le_succ_of_le hbeyond) h
      | some column =>
          rw [encryptedFrom_cons_of_some hc] at h
          obtain ⟨u₁, d₁, hvalue, -⟩ := Stateful.bind_eq_ok.1 h
          change (encryptedValue parameters row r start column).run.run d = _ at hvalue
          rw [encryptedValue, List.getElem?_eq_none hbeyond] at hvalue
          exact absurd hvalue Stateful.throw_ne_ok

/-- **The values of a row.** -/
theorem encryptedColumns_spec {columns : List ColumnRef} {front exprs : List Expr}
    (hnumbered : r.IsNumbered parameters.length) (hexprs : r.exprs = front ++ exprs)
    (hlength : pre.length = front.length)
    (hbound : (pre.flatMap Piece.bound).length = markerCount front) {u : PUnit} {d' : Draft}
    (h : ((encryptedFrom rule tables pre.length columns).forM fun c =>
        encryptedValue parameters done.length r c.1 c.2.2).run.run
      (f.draft (done ++ ⟨pre ++ exprs.map (.ofExpr parameters), added, nodes⟩ :: rest)) =
        (.ok u, d')) :
    ∃ ps, List.Forall₂ (fun p q => p.2.IsWrittenAs rule tables parameters p.1 q)
        (columns.zip exprs) ps ∧
      d' = f.draft (done ++ ⟨pre ++ (ps.map Prod.fst ++
          (exprs.drop columns.length).map (.ofExpr parameters)),
        added ++ ps.flatMap Prod.snd, nodes⟩ :: rest) := by
  induction columns generalizing pre added front exprs with
  | nil =>
      obtain ⟨-, rfl⟩ := Stateful.pure_eq_ok.1 h
      refine ⟨[], by rw [List.zip_nil_left]; exact .nil, ?_⟩
      simp
  | cons c columns ih =>
      cases exprs with
      | nil =>
          have hbeyond : r.exprs.length ≤ pre.length := by
            rw [hexprs, List.append_nil, hlength]
          cases encryptedColumns_beyond hbeyond h
          exact ⟨[], by rw [List.zip_nil_right]; exact .nil, by simp⟩
      | cons e exprs =>
          have hmarker := hnumbered.marker_eq hexprs
          -- the columns behind the first go on behind its value
          have hrest {p : Piece} {x : List Piece}
              (hp : e.IsWrittenAs rule tables parameters c (p, x))
              (hcount : p.bound.length = markerCount [e])
              (h : ((encryptedFrom rule tables (pre.length + 1) columns).forM fun c =>
                  encryptedValue parameters done.length r c.1 c.2.2).run.run
                (f.draft (done ++ ⟨pre ++ p :: exprs.map (.ofExpr parameters), added ++ x, nodes⟩ ::
                  rest)) = (.ok u, d')) :
              ∃ ps, List.Forall₂ (fun p q => p.2.IsWrittenAs rule tables parameters p.1 q)
                  ((c :: columns).zip (e :: exprs)) ps ∧
                d' = f.draft (done ++ ⟨pre ++ (ps.map Prod.fst ++
                    ((e :: exprs).drop (c :: columns).length).map (.ofExpr parameters)),
                  added ++ ps.flatMap Prod.snd, nodes⟩ :: rest) := by
            have hfront : r.exprs = front ++ [e] ++ exprs := by
              rw [hexprs, List.append_assoc, List.singleton_append]
            have hlengths : (pre ++ [p]).length = (front ++ [e]).length := by
              rw [List.length_append, List.length_append, hlength]
              rfl
            have hbounds : ((pre ++ [p]).flatMap Piece.bound).length =
                markerCount (front ++ [e]) := by
              rw [List.flatMap_append, List.flatMap_singleton, List.length_append, hbound, hcount,
                markerCount, markerCount, markerCount, List.countP_append]
            have hnext : pre.length + 1 = (pre ++ [p]).length := by
              rw [List.length_append]
              rfl
            rw [List.append_cons pre, hnext] at h
            obtain ⟨ps, hps, hd⟩ := ih hfront hlengths hbounds h
            refine ⟨(p, x) :: ps, .cons hp hps, ?_⟩
            rw [hd]
            simp
          cases hc : encryptColumn? rule tables c with
          | none =>
              rw [encryptedFrom_cons_of_none hc] at h
              refine hrest (p := .ofExpr parameters e) (x := []) ?_ ?_ ?_
              · rw [Expr.IsWrittenAs, hc]
              · exact Piece.length_bound_ofExpr fun n hn => (hmarker n hn).2
              · rwa [List.append_nil]
          | some column =>
              rw [encryptedFrom_cons_of_some hc] at h
              obtain ⟨u₁, d₁, hvalue, h⟩ := Stateful.bind_eq_ok.1 h
              obtain ⟨v, parts, cipher, others, hv, hparts, hvalues, rfl⟩ := encryptedValue_spec
                (by rw [hexprs, hlength]; simp) (fun n hn => by
                  rw [(hmarker n hn).1, hbound]
                  omega) hvalue
              refine hrest ?_ (Piece.length_bound_replacing e cipher) h
              rw [Expr.IsWrittenAs, hc]
              exact ⟨v, parts, cipher, others, hv, hparts, hvalues, rfl⟩

end Editing

/-! ### All rows -/

namespace Routed

variable {r : Routed} {x : ValueRow × Nat}

/-- A row with its number before any of its columns is encrypted. -/
def pieces (r : Routed) (x : ValueRow × Nat) : RowPieces :=
  ⟨x.1.exprs.map (.ofExpr r.sql.parameters),
    (Editing.rowKey? r x.2).toList.map (.further (!r.sql.parameters.isEmpty)),
    (r.routing.rowNodes[x.2]?).getD []⟩

theorem draft_pieces (r : Routed) (x : ValueRow × Nat) :
    (r.pieces x).draft = Editing.draftOf r x := by
  rw [pieces, RowPieces.draft, Editing.draftOf, Editing.writtenKey, List.map_append, List.map_map,
    List.map_map]
  cases Editing.rowKey? r x.2 <;> cases r.sql.parameters.isEmpty <;> rfl

theorem binding_pieces (hx : x.1.IsNumbered r.sql.parameters.length) :
    (r.pieces x).binding = Editing.bindingOf r x := by
  rw [pieces, RowPieces.binding, Editing.bindingOf, Editing.boundKey, List.flatMap_map]
  refine congrArg₂ RowBinding.mk (Expr.flatMap_ownParameter hx.markers) ?_
  cases Editing.rowKey? r x.2 <;> cases r.sql.parameters.isEmpty <;> rfl

end Routed

/-- **All rows are encrypted in the same way**, one after another. -/
theorem Editing.encryptedValues_spec {rule : EncryptRule} {tables : List TableRef}
    {columns : List ColumnRef} {r : Routed} {f : RowFrame} {done : List RowPieces}
    {rows : List ValueRow} (hnumbered : ∀ v ∈ rows, v.IsNumbered r.sql.parameters.length)
    {u : PUnit} {d' : Draft}
    (h : (encryptedValues r.sql.parameters (encryptedAmong rule tables columns) done.length
      rows).run.run (f.draft (done ++ (rows.zipIdx done.length).map r.pieces)) = (.ok u, d')) :
    ∃ ys, d' = f.draft (done ++ ys) ∧
      List.Forall₂ (fun x y => (r.pieces x).IsEncrypted rule tables r.sql.parameters columns
        x.1.exprs y) (rows.zipIdx done.length) ys := by
  induction rows generalizing done with
  | nil =>
      obtain ⟨-, rfl⟩ := Stateful.pure_eq_ok.1 h
      exact ⟨[], rfl, .nil⟩
  | cons v rows ih =>
      obtain ⟨hv, hrows⟩ := List.forall_mem_cons.1 hnumbered
      obtain ⟨u₁, d₁, hfirst, h⟩ := Stateful.bind_eq_ok.1 h
      obtain ⟨ps, hps, rfl⟩ := encryptedColumns_spec hv (List.nil_append v.exprs).symm
        (List.length_nil (α := Piece)) rfl hfirst
      have hnext (y : RowPieces) : done.length + 1 = (done ++ [y]).length := by
        rw [List.length_append]
        rfl
      rw [List.append_cons done] at h
      rw [hnext] at h
      obtain ⟨ys, rfl, hys⟩ := ih hrows h
      rw [← hnext] at hys
      rw [← List.append_cons]
      exact ⟨_ :: ys, rfl, .cons ⟨ps, hps, rfl⟩ hys⟩

end ShardedSql
