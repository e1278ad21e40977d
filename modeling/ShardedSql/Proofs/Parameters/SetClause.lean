/-
**The parameters of an insertion with `SET` whose key is generated.**

The key is assigned right behind the clause `SET`, with a marker of its own, and it is bound behind
all parameters of the statement.  The markers of the assignments on a duplicate key come after the
key in the text, but their parameters come before it.  So every marker of the clause gets its own
parameter, and the others do just when there is none on a duplicate key, or when all of these are
bound to the value of the key anyway.

Main definitions:

* `ShardedSql.Insert.IsLaidOut` — the clauses of an insertion follow one another in its text;
* `ShardedSql.Insert.marksIn` — **the markers of its physical statements**, read from left to right.

Main results:

* `ShardedSql.Routed.draft_of_set` — the table is renamed, and the key is assigned and bound;
* `ShardedSql.Insert.marksIn_eq` — the marker of the key stands between those of both clauses;
* `ShardedSql.LogicalSql.assigned_key_spec` — **what is bound to the markers, and when it is what they
  stand for**.
-/

import ShardedSql.Proofs.Edit.Markers
import ShardedSql.Proofs.Editor.Leading
import ShardedSql.Proofs.Physical

set_option relaxedAutoImplicit false
set_option autoImplicit false

namespace ShardedSql

open Text

variable {rule : Rule} {r : Routed} {i : Insert} {set : SetClause}

/-! ### What is found -/

/-- The edits of an insertion with `SET` whose key is generated. -/
def Insert.setEdits (i : Insert) (set : SetClause) (column : String) : List Edit :=
  [.table i.table.start i.table.stop i.table.name,
    .keyAssignment (set.stop + 1) column .marker]

namespace Editing

/-- The key is assigned behind the clause, with a marker, and bound behind all parameters. -/
theorem keyAssignment_spec {k : GeneratedKey} {v : Value} (hkey : generatedKey? r = some (i, k))
    (hset : i.set = some set) (hvalue : k.values.head? = some v)
    (hparameters : r.sql.parameters.isEmpty = false) {b : WholeBinding} {found : List Edit}
    {d d₁ : Draft} (h : (keyAssignment r).run.run d = (.ok found, d₁))
    (hbinding : d.binding = .whole b) :
    found = [.keyAssignment (set.stop + 1) k.column .marker] ∧
      d₁ = { d with binding := .whole (b.add v) } := by
  unfold keyAssignment at h
  simp only [hkey, hset, hvalue, hparameters, Bool.false_eq_true, if_false] at h
  obtain ⟨b', d₂, hb, h⟩ := Stateful.bind_eq_ok.1 h
  obtain ⟨u, d₃, hbind, h⟩ := Stateful.bind_eq_ok.1 h
  obtain ⟨rfl, rfl⟩ := Stateful.pure_eq_ok.1 h
  obtain ⟨hbound, rfl⟩ := of_requireWhole hb
  cases hbinding.symm.trans hbound
  exact ⟨rfl, (Stateful.modify_eq_ok.1 hbind).symm⟩

/-- Without encrypted columns no assignment is edited. -/
theorem encryption_of_set {rule : EncryptRule} {sql : LogicalSql} {found : List Edit}
    {d d₁ : Draft} (hrule : ∀ columns ∈ rule.columns? i.table.name, columns = [])
    (hinsert : sql.statement = .insert i) (hset : i.set = some set)
    (h : (encryption rule sql).run.run d = (.ok found, d₁)) : found = [] ∧ d₁ = d := by
  have hassignments (as : List Assignment) : assignmentEdits rule [i.table] sql.parameters as =
      pure [] := by
    induction as with
    | nil => rfl
    | cons a as ih =>
        rw [assignmentEdits, encryptedAssignment, encryptColumn?_eq_none hrule, ih]
        rfl
  unfold encryption at h
  rw [hinsert] at h
  obtain ⟨predicates, d₂, hpredicates, h⟩ := Stateful.bind_eq_ok.1 h
  obtain ⟨others, d₃, hothers, h⟩ := Stateful.bind_eq_ok.1 h
  obtain ⟨rfl, rfl⟩ := Stateful.pure_eq_ok.1 h
  obtain ⟨rfl, rfl⟩ := Stateful.pure_eq_ok.1 hpredicates
  simp only [encryptedParts, hset, Statement.tables] at hothers
  obtain ⟨edits, d₄, hedits, hothers⟩ := Stateful.bind_eq_ok.1 hothers
  obtain ⟨u, d₅, hcheck, hothers⟩ := Stateful.bind_eq_ok.1 hothers
  obtain ⟨rfl, rfl⟩ := Stateful.pure_eq_ok.1 hothers
  obtain ⟨-, rfl⟩ := Stateful.liftOutcome_eq_ok.1 hcheck
  obtain ⟨b, d₆, hb, hall⟩ := Stateful.bind_eq_ok.1 hedits
  obtain ⟨-, rfl⟩ := of_requireWhole hb
  rw [hassignments] at hall
  obtain ⟨rfl, rfl⟩ := Stateful.pure_eq_ok.1 hall
  exact ⟨rfl, rfl⟩

end Editing

/-- **The table is renamed, and the key is assigned and bound behind all parameters.** -/
theorem Routed.draft_of_set (hinsert : r.sql.statement = .insert i) (hset : i.set = some set)
    (hsharded : rule.isSharded i.table.name = true)
    (hrule : ∀ columns ∈ rule.encrypt.columns? i.table.name, columns = [])
    {k : GeneratedKey} {v : Value} (hkey : Editing.generatedKey? r = some (i, k))
    (hvalue : k.values.head? = some v) (hparameters : r.sql.parameters.isEmpty = false) {u : PUnit}
    (h : (Editor.runAll rule r Editor.all).run.run (Draft.start rule r) =
      (.ok u, r.draft rule)) :
    r.draft rule =
      ⟨i.setEdits set k.column, .whole ((WholeBinding.ofValues r.sql.parameters).add v)⟩ := by
  have hleading : Editor.leadingEdits rule r i =
      [.table i.table.start i.table.stop i.table.name] := by
    rw [Editor.leadingEdits, if_pos hsharded, hset]
    rfl
  have hstart : (Draft.start rule r).binding =
      .whole (WholeBinding.ofValues r.sql.parameters) := by
    rw [Draft.start, Draft.startBinding, hinsert]
    simp [hset]
  rw [Editor.runAll_insert hinsert, hleading, Draft.start_edits, List.nil_append] at h
  obtain ⟨d₁, hassigned, h⟩ := Editor.runAll_cons_eq_ok h
  obtain ⟨d₂, hrows, h⟩ := Editor.runAll_cons_eq_ok h
  obtain ⟨d₃, hencryption, h⟩ := Editor.runAll_cons_eq_ok h
  obtain ⟨-, hdraft⟩ := Stateful.pure_eq_ok.1 h
  -- the key is assigned
  rcases hassigned with ⟨hskipped, -⟩ | ⟨-, found, d, hfound, rfl⟩
  · have hneeded : Editor.isSkipped rule r .keyAssignment = false := by
      simp [Editor.isSkipped, Editor.servesMerging, Editor.applies, hkey, hset]
    rw [hneeded] at hskipped
    cases hskipped
  obtain ⟨rfl, rfl⟩ := Editing.keyAssignment_spec hkey hset hvalue hparameters hfound hstart
  -- there are no rows to write anew, and nothing is encrypted
  have hnoRows : Editing.valuesInsert? r = none := by
    rw [Editing.valuesInsert?, hinsert]
    simp [hset]
  have hsame : d₂ = _ := hrows.eq_self fun found d hfound => by
    change (Editing.insertRows r).run.run _ = _ at hfound
    unfold Editing.insertRows at hfound
    rw [hnoRows] at hfound
    obtain ⟨rfl, rfl⟩ := Stateful.pure_eq_ok.1 hfound
    exact ⟨rfl, rfl⟩
  have hlast : d₃ = d₂ := hencryption.eq_self fun found d hfound =>
    Editing.encryption_of_set hrule hinsert hset hfound
  rw [← hdraft, hlast, hsame]
  rfl

/-! ### Markers from left to right -/

namespace Insert

/-- The clauses of an insertion with `SET` follow one another in its text, and so do the expressions
in them. -/
structure IsLaidOut (i : Insert) (set : SetClause) (length : Nat) : Prop where
  table : i.table.start ≤ i.table.stop ∧ i.table.stop < set.start
  clause : set.start ≤ set.stop ∧ set.stop < length
  within : ∀ a ∈ set.assignments, set.start ≤ a.value.start ∧ a.value.start ≤ set.stop
  behind : ∀ a ∈ i.onDuplicate, set.stop < a.value.start ∧ a.value.start < length
  ascending : (set.assignments ++ i.onDuplicate).Pairwise fun a b => a.value.start < b.value.start

/-- The markers of a physical statement of an insertion with `SET`, read from left to right. -/
def marksIn (i : Insert) (edits : List Edit) (length : Nat) : List Mark :=
  Splice.readOff Edit.marks (Expr.marksAt (i.rowExprs.flatten ++ i.onDuplicate.map (·.value))) edits
    length

theorem rowExprs_of_set (hset : i.set = some set) :
    i.rowExprs.flatten = set.assignments.map (·.value) := by
  rw [rowExprs, hset]
  exact List.append_nil _

/-- **The marker of the key stands between those of the clause and those behind it.** -/
theorem marksIn_eq (column : String) {length : Nat} (hset : i.set = some set)
    (hplaces : i.IsLaidOut set length) :
    i.marksIn (i.setEdits set column) length =
      (set.assignments.map (·.value)).filterMap Expr.mark? ++
        .key :: (i.onDuplicate.map (·.value)).filterMap Expr.mark? := by
  obtain ⟨hascending, hascending', -⟩ := List.pairwise_append.1 hplaces.ascending
  obtain ⟨-, htable⟩ := hplaces.table
  obtain ⟨hclause, hlength⟩ := hplaces.clause
  have hwithin : ∀ e ∈ set.assignments.map (·.value), set.start ≤ e.start ∧ e.start ≤ set.stop :=
    fun e he => by
      obtain ⟨a, ha, rfl⟩ := List.mem_map.1 he
      exact hplaces.within a ha
  have hbehind : ∀ e ∈ i.onDuplicate.map (·.value), set.stop < e.start ∧ e.start < length :=
    fun e he => by
      obtain ⟨a, ha, rfl⟩ := List.mem_map.1 he
      exact hplaces.behind a ha
  have hplace (place : Nat) := Expr.marksAt_append (set.assignments.map (·.value))
    (i.onDuplicate.map (·.value)) place
  -- what is replaced is the name of the table, which holds no expression
  have hcovered : ∀ place, (Edit.table i.table.start i.table.stop i.table.name).covers place →
      Expr.marksAt (set.assignments.map (·.value) ++ i.onDuplicate.map (·.value)) place = [] := by
    intro place hcovers
    have hlt : place < i.table.stop + 1 := ((Edit.covers_iff _ place).1 hcovers).2
    have hfirst : Expr.marksAt (set.assignments.map (·.value)) place = [] :=
      Expr.marksAt_eq_nil fun e he => by have := (hwithin e he).1; omega
    have hsecond : Expr.marksAt (i.onDuplicate.map (·.value)) place = [] :=
      Expr.marksAt_eq_nil fun e he => by have := (hbehind e he).1; omega
    rw [hplace, hfirst, hsecond, List.append_nil]
  have hfirst : (List.range (set.stop + 1)).flatMap
      (Expr.marksAt (set.assignments.map (·.value) ++ i.onDuplicate.map (·.value))) =
        (set.assignments.map (·.value)).filterMap Expr.mark? := by
    rw [List.range_eq_range', ← Expr.flatMap_marksAt 0 (set.stop + 1)
      (List.pairwise_map.2 hascending) fun e he => by have := (hwithin e he).2; omega]
    refine List.flatMap_congr fun place hp => ?_
    have hlt := (List.mem_range'_1.1 hp).2
    have hnone : Expr.marksAt (i.onDuplicate.map (·.value)) place = [] :=
      Expr.marksAt_eq_nil fun e he => by have := (hbehind e he).1; omega
    rw [hplace, hnone, List.append_nil]
  have hothers : (List.range' (set.stop + 1) (length + 1 - (set.stop + 1))).flatMap
      (Expr.marksAt (set.assignments.map (·.value) ++ i.onDuplicate.map (·.value))) =
        (i.onDuplicate.map (·.value)).filterMap Expr.mark? := by
    rw [← Expr.flatMap_marksAt (set.stop + 1) (length + 1 - (set.stop + 1))
      (List.pairwise_map.2 hascending') fun e he => by have := hbehind e he; omega]
    refine List.flatMap_congr fun place hp => ?_
    have hle := (List.mem_range'_1.1 hp).1
    have hnone : Expr.marksAt (set.assignments.map (·.value)) place = [] :=
      Expr.marksAt_eq_nil fun e he => by have := (hwithin e he).2; omega
    rw [hplace, hnone, List.nil_append]
  rw [marksIn, setEdits, rowExprs_of_set hset,
    Splice.readOff_pair rfl rfl hcovered (Nat.succ_le_of_lt hlength)]
  change (List.range (set.stop + 1)).flatMap _ ++ [Mark.key] ++
    (List.range' (set.stop + 1) (length + 1 - (set.stop + 1))).flatMap _ = _
  rw [hfirst, hothers, List.append_assoc]
  rfl

theorem filterMap_mark? (exprs : List Expr) :
    exprs.filterMap Expr.mark? = (exprs.filterMap Expr.marker?).map Mark.own := by
  rw [List.map_filterMap]
  rfl

/-- What the markers stand for is what is bound to them when the key may as well come last. -/
theorem map_value?_eq_iff {parameters : List Value} {v : Value} (hset : i.set = some set)
    (hmarkers : i.markers = List.range parameters.length) :
    ((set.assignments.map (·.value)).filterMap Expr.mark? ++
        .key :: (i.onDuplicate.map (·.value)).filterMap Expr.mark?).map
          (Mark.value? parameters v) = (parameters ++ [v]).map some ↔
      ∀ w ∈ parameters.drop i.rowParameterCount, w = v := by
  have hcount : ((set.assignments.map (·.value)).filterMap Expr.mark?).length =
      i.rowParameterCount := by
    rw [filterMap_mark?, List.length_map, length_filterMap_marker?, rowParameterCount, rows,
      rowExprs, hset]
    rfl
  -- without the key every marker stands for its own parameter
  have hown : ((set.assignments.map (·.value)).filterMap Expr.mark?).map
        (Mark.value? parameters v) ++
      ((i.onDuplicate.map (·.value)).filterMap Expr.mark?).map (Mark.value? parameters v) =
        parameters.map some := by
    rw [markers, rowExprs_of_set hset] at hmarkers
    rw [← List.map_append, ← List.filterMap_append, filterMap_mark?, hmarkers, List.map_map]
    refine List.ext_getElem (by simp) fun j hj hj' => ?_
    simp only [List.length_map, List.length_range] at hj
    simp [Mark.value?, hj]
  have hbehind : ((i.onDuplicate.map (·.value)).filterMap Expr.mark?).map
      (Mark.value? parameters v) = (parameters.drop i.rowParameterCount).map some := by
    rw [List.map_drop, ← hown, ← hcount, List.drop_left' (List.length_map _)]
  rw [List.map_append, List.map_append, ← hown, List.map_cons, List.map_cons, List.map_nil,
    List.append_assoc, List.append_cancel_left_eq, Mark.value?, Lists.cons_eq_concat_iff, hbehind,
    List.forall_mem_map]
  simp only [Option.some.injEq]

end Insert

/-! ### Physical statements -/

/-- The text of a physical statement of an insertion with `SET`, place by place. -/
theorem Insert.utf8_of_setEdits {column text out : String} {p : Option Placement}
    (hplaces : i.IsLaidOut set text.utf8ByteSize)
    (h : Splice.edited text (i.setEdits set column) p = .ok out) :
    utf8 out = Splice.spliced p (i.setEdits set column) (utf8 text) := by
  have hlt : i.table.start < set.stop + 1 := by
    have := hplaces.table
    have := hplaces.clause
    omega
  have hdistinct : Splice.Distinct (i.setEdits set column) :=
    List.pairwise_pair.2 fun _ hreplaces => absurd hreplaces Bool.false_ne_true
  have hordered : (i.setEdits set column).Pairwise fun a b => (a.order b).isLE = true := by
    refine List.pairwise_pair.2 ?_
    simp [Edit.order, Edit.start, Nat.compare_eq_lt.2 hlt]
  exact Splice.utf8_of_edited hdistinct hordered rfl h

/-- A key that was generated for an insertion with `SET` has a single value. -/
theorem LogicalSql.exists_key_of_set {sql : LogicalSql} (hinsert : sql.statement = .insert i)
    (hset : i.set = some set) {s s' : Rule.Counters}
    (hroute : (sql.route rule).run.run s = (.ok r, s'))
    (hgenerated : ∃ k ∈ r.key, k.generated = true) :
    r.sql = sql ∧ ∃ k v, r.key = some k ∧ k.values = [v] ∧
      Editing.generatedKey? r = some (i, k) := by
  obtain ⟨hsql, hkeys⟩ := length_keys_of_route hinsert hroute
  obtain ⟨k, hk, hgenerated⟩ := hgenerated
  have hlength := hkeys k hk hgenerated
  rw [Insert.rows_length, Insert.rowExprs, hset] at hlength
  obtain ⟨v, hv⟩ := List.length_eq_one_iff.1 hlength
  refine ⟨hsql, k, v, hk, hv, ?_⟩
  rw [Editing.generatedKey?, hsql, hinsert, hk]
  exact if_pos hgenerated

/-- **What is bound to the markers of an insertion with `SET` whose key is generated.**  Read from
left to right the markers of each physical statement are those of the clause, that of the key, and
those of the assignments on a duplicate key, while the key is bound behind all parameters.  So each
marker is bound to what it stands for exactly when all parameters on a duplicate key have the value
of the key, and in particular when there are none. -/
theorem LogicalSql.assigned_key_spec {sql : LogicalSql} (hinsert : sql.statement = .insert i)
    (hset : i.set = some set) (hsharded : rule.isSharded i.table.name = true)
    (hencrypt : ∀ columns ∈ rule.encrypt.columns? i.table.name, columns = [])
    (hmarkers : i.markers = List.range sql.parameters.length) (hparameters : sql.parameters ≠ [])
    (hplaces : i.IsLaidOut set sql.text.utf8ByteSize) {s s' : Rule.Counters}
    (hroute : (sql.route rule).run.run s = (.ok r, s'))
    (hgenerated : ∃ k ∈ r.key, k.generated = true) {statements : List PhysicalSql}
    (hphysical : r.physical rule = .ok statements) :
    ∃ k v, r.key = some k ∧ k.values = [v] ∧
      (r.draft rule).edits = i.setEdits set k.column ∧
      i.marksIn (r.draft rule).edits sql.text.utf8ByteSize =
        (set.assignments.map (·.value)).filterMap Expr.mark? ++
          .key :: (i.onDuplicate.map (·.value)).filterMap Expr.mark? ∧
      List.Forall₂ (fun p statement =>
        statement.dataSource = p.source.actual ∧
        utf8 statement.text = Splice.spliced (some p) (r.draft rule).edits (utf8 sql.text) ∧
        statement.parameters = sql.parameters ++ [v] ∧
        ((i.marksIn (r.draft rule).edits sql.text.utf8ByteSize).map
            (Mark.value? sql.parameters v) = statement.parameters.map some ↔
          ∀ w ∈ sql.parameters.drop i.rowParameterCount, w = v))
        r.routing.placements statements := by
  obtain ⟨rfl, k, v, hk, hvalues, hkey⟩ := exists_key_of_set hinsert hset hroute hgenerated
  obtain ⟨⟨u, hrun⟩, -⟩ := Routed.physical_eq_ok hphysical
  have hdraft := Routed.draft_of_set hinsert hset hsharded hencrypt hkey (by rw [hvalues]; rfl)
    (List.isEmpty_eq_false_iff.2 hparameters) hrun
  have hstatements := Routed.forall₂_of_physical hphysical
  have hmarks := Insert.marksIn_eq k.column hset hplaces
  rw [hdraft] at hstatements ⊢
  refine ⟨k, v, hk, hvalues, rfl, hmarks, hstatements.imp fun p statement hstatement => ?_⟩
  obtain ⟨hsource, hbound, htext⟩ := hstatement
  rw [Binding.parameters, WholeBinding.parameters_add, WholeBinding.parameters_ofValues] at hbound
  refine ⟨hsource, Insert.utf8_of_setEdits hplaces htext, hbound, ?_⟩
  rw [hbound, hmarks]
  exact Insert.map_value?_eq_iff hset hmarkers

/-! ### An order that is paid already -/

/-- The clause of an order of a user. -/
def userClause : SetClause := ⟨[⟨.ofName "user_id" 24, .markerAt 0 34⟩], 20, 34⟩

/-- An insertion of an order, of which the number is generated. -/
def setOrder (onDuplicate : List Assignment) : Insert :=
  { table := .ofName "t_order" 12, set := some userClause, onDuplicate := onDuplicate }

/-- An order of a user. -/
def userOrder : LogicalSql where
  text := "INSERT INTO t_order SET user_id = ?"
  statement := .insert (setOrder [])
  parameters := [.int 10]

/-- The assignment of a state on a duplicate key. -/
def payment : List Assignment := [⟨.ofName "status" 60, .markerAt 1 69⟩]

/-- An order of a user, which is paid if it is there already. -/
def paidOrder : LogicalSql where
  text := "INSERT INTO t_order SET user_id = ? ON DUPLICATE KEY UPDATE status = ?"
  statement := .insert (setOrder payment)
  parameters := [.int 10, .text "paid"]

/-- Either order after routing. -/
def setRouted (sql : LogicalSql) : Routed where
  sql := sql
  routing :=
    { placements := [⟨.same "ds_0", [⟨"t_order", "t_order_1"⟩]⟩]
      rowNodes := [[⟨"ds_0", "t_order_1"⟩]] }
  key := some ⟨"order_id", true, [.int 1]⟩

/-- The counters after one key. -/
def afterOneKey : Rule.Counters :=
  { generators := ⟨[("increment", .increment 2 1)]⟩
    readings := { clock := ⟨[], Snowflake.epoch⟩ } }

namespace LogicalSql

/-- Without an assignment on a duplicate key each marker is bound to what it stands for. -/
theorem assigned_key_spec_single :
    ∃ statements,
      (userOrder.route (gridRule [])).run.run (gridRule []).start =
        (.ok (setRouted userOrder), afterOneKey) ∧
      (setRouted userOrder).physical (gridRule []) = .ok statements ∧
      ∀ statement ∈ statements,
        ((setOrder []).marksIn ((setRouted userOrder).draft (gridRule [])).edits 35).map
          (Mark.value? userOrder.parameters (.int 1)) = statement.parameters.map some := by
  have hroute : (userOrder.route (gridRule [])).run.run (gridRule []).start =
      (.ok (setRouted userOrder), afterOneKey) := rfl
  have hphysical : (setRouted userOrder).physical (gridRule []) =
      .ok [⟨"ds_0", "INSERT INTO t_order_1 SET user_id = ?, order_id = ?",
        [.int 10, .int 1]⟩] := by
    rw [Routed.physical_of_pairwise (by decide +kernel)]
    decide +kernel
  have hplaces : (setOrder []).IsLaidOut userClause userOrder.text.utf8ByteSize :=
    ⟨by decide, by decide, by decide, by decide, by decide⟩
  have hencrypt : ∀ columns ∈ (gridRule []).encrypt.columns? (setOrder []).table.name,
      columns = [] := fun columns hcolumns => by cases hcolumns
  have hinsert : userOrder.statement = .insert (setOrder []) := rfl
  have hsharded : (gridRule []).isSharded (setOrder []).table.name = true := rfl
  obtain ⟨k, v, hk, hv, -, -, hstatements⟩ := assigned_key_spec hinsert rfl hsharded hencrypt rfl
    (List.cons_ne_nil _ _) hplaces hroute ⟨_, rfl, rfl⟩ hphysical
  cases hk
  cases hv
  refine ⟨_, hroute, hphysical, fun statement hstatement => ?_⟩
  obtain ⟨p, -, -, -, -, hiff⟩ := Lists.exists_of_forall₂_right hstatements hstatement
  exact hiff.2 fun w hw => by cases hw

/-- With an assignment on a duplicate key the key is assigned the parameter of that assignment, and
the other column is assigned the key. -/
theorem assigned_key_of_onDuplicate :
    Rule.ofConfig .builtin (gridConfig []) = .ok (gridRule []) ∧
      (setOrder payment).IsLaidOut userClause paidOrder.text.utf8ByteSize ∧
      (setOrder payment).markers = List.range paidOrder.parameters.length ∧
      (paidOrder.route (gridRule [])).run.run (gridRule []).start =
        (.ok (setRouted paidOrder), afterOneKey) ∧
      (setRouted paidOrder).physical (gridRule []) = .ok
        [⟨"ds_0",
          "INSERT INTO t_order_1 SET user_id = ?, order_id = ? ON DUPLICATE KEY UPDATE status = ?",
          [.int 10, .text "paid", .int 1]⟩] ∧
      (setOrder payment).marksIn ((setRouted paidOrder).draft (gridRule [])).edits
        paidOrder.text.utf8ByteSize = [.own 0, .key, .own 1] ∧
      [Mark.own 0, .key, .own 1].map (Mark.value? paidOrder.parameters (.int 1)) =
        [some (.int 10), some (.int 1), some (.text "paid")] := by
  refine ⟨by decide +kernel, ⟨by decide, by decide, by decide, by decide, by decide⟩, rfl, rfl, ?_,
    by decide +kernel, rfl⟩
  rw [Routed.physical_of_pairwise (by decide +kernel)]
  decide +kernel

end LogicalSql

end ShardedSql
