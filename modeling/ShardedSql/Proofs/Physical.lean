/-
**Every row of an insertion is sent where it belongs, with its own parameters.**

The rows that a placement gets are chosen twice: those that are written into its statement, and
those whose parameters are bound.  Both choices look for a node of the row that the placement
covers, and where no two actual tables of a data source have the same name that is the node of the
placement itself.  As each row consumes just what is bound for it, the rows of a placement consume
its parameters up to those behind the rows.

Main definitions:

* `ShardedSql.Routed.insertedRow` — **a row as it is inserted**: what its expressions stand for, and
  then the key that was generated for it.

Main results:

* `ShardedSql.Editing.consumes_draftOf` — a row consumes what is bound for it;
* `ShardedSql.Routed.Spreads.consumes_rowsFor` — **the rows of a placement consume what is bound
  for them**;
* `ShardedSql.LogicalSql.inserted_rows_spec` — **each physical statement inserts the rows that have
  a node there**, and a row that gives both columns by which its table is spread is inserted once.
-/

import ShardedSql.Physical
import ShardedSql.Proofs.Binding
import ShardedSql.Proofs.Edit.Splice
import ShardedSql.Proofs.Editor
import ShardedSql.Proofs.Routing.Insert

set_option relaxedAutoImplicit false
set_option autoImplicit false

namespace ShardedSql

open Filling

variable {rule : Rule} {t : TableRule} {r : Routed} {i : Insert}

/-! ### Rows -/

/-- A row with its number as it is inserted: what its expressions stand for, and then the key that
was generated for it. -/
def Routed.insertedRow (r : Routed) (x : ValueRow × Nat) : List Cell :=
  x.1.exprs.map (Expr.cell r.sql.parameters) ++ (Editing.rowKey? r x.2).toList.map Cell.value

namespace Editing

theorem consumes_writtenKey (row : Nat) :
    Consumes ((writtenKey r row).mapM RowValue.fill) (boundKey r row)
      ((rowKey? r row).toList.map Cell.value) := by
  rw [writtenKey, boundKey]
  cases rowKey? r row with
  | none =>
      rw [Option.toList_none, ite_self]
      exact .pure []
  | some v =>
      cases r.sql.parameters.isEmpty with
      | true => exact fun rest => rfl
      | false => exact fun rest => rfl

/-- A row consumes what is bound for it. -/
theorem consumes_draftOf {x : ValueRow × Nat} (hx : x.1.IsNumbered r.sql.parameters.length) :
    Consumes (draftOf r x).fill (bindingOf r x).parameters (r.insertedRow x) :=
  (RowValue.consumes_exprs hx.markers hx.le_total).append (consumes_writtenKey x.2)

end Editing

/-! ### Placements -/

/-- A row that is written goes to the placements that reach a node of it, and so does a row that is
bound. -/
theorem Routed.Spreads.goesTo_eq_sends (hvalid : t.IsValid) (hnames : t.HasDistinctNames)
    (h : r.Spreads i t) {p : Placement} (hp : p ∈ r.routing.placements) {x : ValueRow × Nat}
    (hx : x ∈ i.rows.zipIdx) :
    GroupedBinding.goesTo p r.routing.rowNodes[x.2]? = r.sends i.table.name x.2 p := by
  obtain ⟨nodes, hnodes, -⟩ := h.nodesFor_of_mem hx
  obtain ⟨hne, -⟩ := h.rowNodes_spec hvalid (List.mem_of_getElem? hnodes)
  rw [GroupedBinding.goesTo_eq, h.any_covers_eq_sends hvalid hnames hp hx, hnodes,
    Option.getD_some, List.isEmpty_eq_false_iff.2 hne, Bool.false_or]

/-- **The rows of a placement consume what is bound for them.** -/
theorem Routed.Spreads.consumes_rowsFor (hvalid : t.IsValid) (hnames : t.HasDistinctNames)
    (h : r.Spreads i t) (hmarkers : i.markers = List.range r.sql.parameters.length)
    {p : Placement} (hp : p ∈ r.routing.placements) :
    Consumes (Edit.fillRows (Edit.rowsFor (some p) (i.rows.zipIdx.map (Editing.draftOf r))))
      (GroupedBinding.rowsAt p (i.rows.zipIdx.map (Editing.bindingOf r)) r.routing.rowNodes)
      ((i.rows.zipIdx.filter fun x => r.sends i.table.name x.2 p).map r.insertedRow) := by
  have hwritten : Edit.rowsFor (some p) (i.rows.zipIdx.map (Editing.draftOf r)) =
      (i.rows.zipIdx.filter fun x => r.sends i.table.name x.2 p).map (Editing.draftOf r) := by
    rw [Edit.rowsFor, List.filter_map]
    refine congrArg (List.map _) (List.filter_congr fun x hx => ?_)
    rw [← h.goesTo_eq_sends hvalid hnames hp hx, GroupedBinding.goesTo_eq]
    rfl
  -- the second choice walks over the rows together with their nodes
  have hbound := GroupedBinding.rowsAt_eq_flatMap p (Editing.bindingOf r) r.routing.rowNodes
    i.rows 0
  rw [List.drop_zero] at hbound
  have hchosen : (i.rows.zipIdx.filter fun x => GroupedBinding.goesTo p r.routing.rowNodes[x.2]?) =
      i.rows.zipIdx.filter fun x => r.sends i.table.name x.2 p :=
    List.filter_congr fun x hx => h.goesTo_eq_sends hvalid hnames hp hx
  rw [hwritten, hbound, hchosen, Edit.fillRows, List.mapM_map]
  refine Consumes.mapM fun x hx => Editing.consumes_draftOf ?_
  exact i.isNumbered_of_mem_rows hmarkers x.1
    (List.fst_mem_of_mem_zipIdx (List.mem_filter.1 hx).1)

/-! ### Physical statements -/

/-- A physical statement has the text of the statement with all edits, and the parameters that are
bound. -/
theorem Routed.forall₂_of_physical {statements : List PhysicalSql}
    (h : r.physical rule = .ok statements) :
    List.Forall₂ (fun p s => s.dataSource = p.source.actual ∧
      s.parameters = (r.draft rule).binding.parameters p r.routing ∧
      Splice.edited r.sql.text (r.draft rule).edits (some p) = .ok s.text)
      r.routing.placements statements := by
  obtain ⟨u, -, h⟩ := Outcome.bind_eq_ok.1 h
  obtain ⟨splice, hsplice, h⟩ := Outcome.bind_eq_ok.1 h
  refine (Outcome.mapM_eq_ok.1 h).imp fun p s hs => ?_
  obtain ⟨text, htext, hs⟩ := Outcome.bind_eq_ok.1 hs
  cases hs
  exact ⟨rfl, rfl, Outcome.bind_eq_ok.2 ⟨splice, hsplice, htext⟩⟩

/-- The physical statements of a routed one have the parameters of their placements. -/
theorem Routed.physical_eq_ok {statements : List PhysicalSql}
    (h : r.physical rule = .ok statements) :
    (∃ u, (Editor.runAll rule r Editor.all).run.run (Draft.start rule r) = (.ok u, r.draft rule)) ∧
      List.Forall₂ (fun p s => s.dataSource = p.source.actual ∧
        s.parameters = (r.draft rule).binding.parameters p r.routing)
        r.routing.placements statements := by
  have hstatements := forall₂_of_physical h
  obtain ⟨u, houtcome, -⟩ := Outcome.bind_eq_ok.1 h
  exact ⟨⟨u, Prod.ext houtcome rfl⟩, hstatements.imp fun p s hs => ⟨hs.1, hs.2.1⟩⟩

/-- What a routed statement becomes when its edits are made in some order. -/
theorem Routed.physical_of_arrange {edits : List Edit}
    (h : Splice.arrange (r.draft rule).edits = edits) :
    r.physical rule =
      ((Editor.runAll rule r Editor.all).run.run (Draft.start rule r)).1 >>= fun _ =>
        Splice.checkFrom r.sql.text none edits >>= fun _ =>
          r.routing.placements.mapM fun p =>
            (Splice.mk r.sql.text edits).render (some p) >>= fun text =>
              pure ⟨p.source.actual, text, (r.draft rule).binding.parameters p r.routing⟩ := by
  change (((Editor.runAll rule r Editor.all).run.run (Draft.start rule r)).1 >>= fun _ =>
    Splice.ofEdits r.sql.text (r.draft rule).edits >>= _) = _
  unfold Splice.ofEdits
  rw [h]
  refine congrArg _ (funext fun _ => ?_)
  cases Splice.checkFrom r.sql.text none edits <;> rfl

/-- Edits that are found in order are made as they are. -/
theorem Routed.physical_of_pairwise
    (h : (r.draft rule).edits.Pairwise fun a b => (a.order b).isLE = true) :
    r.physical rule =
      ((Editor.runAll rule r Editor.all).run.run (Draft.start rule r)).1 >>= fun _ =>
        Splice.checkFrom r.sql.text none (r.draft rule).edits >>= fun _ =>
          r.routing.placements.mapM fun p =>
            (Splice.mk r.sql.text (r.draft rule).edits).render (some p) >>= fun text =>
              pure ⟨p.source.actual, text, (r.draft rule).binding.parameters p r.routing⟩ :=
  physical_of_arrange (List.mergeSort_of_pairwise h)

theorem exists_valuesSpan? (hvalues : i.values ≠ []) :
    ∃ start stop, i.valuesSpan? = some (start, stop) := by
  rw [Insert.valuesSpan?, List.head?_eq_some_head hvalues, List.getLast?_eq_some_getLast hvalues]
  exact ⟨_, _, rfl⟩

/-- **Each physical statement of an insertion inserts the rows that have a node at its placement.**
When the markers of the rows that are written for a placement are filled from left to right with
the parameters of its statement, each row is what its own expressions stand for, with the key that
was generated for it, and the parameters that are left over are those behind the rows.  A row that
has values for the columns of both axes goes to a single placement. -/
theorem LogicalSql.inserted_rows_spec {registry : Registry} {config : RuleConfig}
    (hrule : Rule.ofConfig registry config = .ok rule) {sql : LogicalSql}
    (hinsert : sql.statement = .insert i) (hset : i.set = none) (hvalues : i.values ≠ [])
    (ht : rule.table? i.table.name = some t) (hnames : t.HasDistinctNames)
    (hbroadcast : rule.isBroadcast i.table.name = false)
    (hencrypt : ∀ columns ∈ rule.encrypt.columns? i.table.name, columns = [])
    (hmarkers : i.markers = List.range sql.parameters.length)
    {s s' : Rule.Counters} (hroute : (sql.route rule).run.run s = (.ok r, s'))
    {statements : List PhysicalSql} (hphysical : r.physical rule = .ok statements) :
    (∀ k ∈ r.key, k.generated = true → k.values.length = i.rows.length) ∧
      (∃ start stop rows,
        (r.draft rule).edits.filter Edit.writesRows = [.insertRows start stop rows] ∧
        List.Forall₂ (fun p statement =>
          statement.dataSource = p.source.actual ∧
          (Edit.fillRows (Edit.rowsFor (some p) rows)).run statement.parameters =
            some ((i.rows.zipIdx.filter fun x => r.sends i.table.name x.2 p).map r.insertedRow,
              sql.parameters.drop i.rowParameterCount)) r.routing.placements statements) ∧
      ((∃ column algorithm, t.database = .standard column algorithm) →
        (∃ column algorithm, t.table = .standard column algorithm) →
        ∀ x ∈ i.rows.zipIdx,
          (∀ column ∈ t.shardingColumns, i.HasValue sql.parameters r.key x.1 column) →
          r.routing.placements.countP (r.sends i.table.name x.2) = 1) := by
  have hvalid := Rule.isValid_of_table? hrule ht
  have hrows : i.rows ≠ [] := by
    rw [← List.length_pos_iff, Insert.rows_length, Insert.rowExprs, hset, List.length_map]
    exact List.length_pos_iff.2 hvalues
  obtain ⟨rfl, hspreads⟩ := sql.spreads_of_route hvalid hinsert hrows ht hbroadcast hroute
  obtain ⟨⟨u, hrun⟩, hstatements⟩ := Routed.physical_eq_ok hphysical
  obtain ⟨start, stop, hspan⟩ := exists_valuesSpan? hvalues
  obtain ⟨hedits, g, hbinding, hbound, htrailing⟩ := Routed.draft_of_insert hinsert hset hspan
    ((rule.isSharded_iff _).2 ⟨t, ht⟩) hencrypt hrun
  refine ⟨hspreads.length_keys, ⟨start, stop, _, hedits, ?_⟩, ?_⟩
  · have hplaced := (List.forall₂_and_left _ _).2 ⟨fun p hp => hp, hstatements⟩
    refine hplaced.imp fun p statement ⟨hp, hsource, hparameters⟩ => ⟨hsource, ?_⟩
    rw [hparameters, hbinding, Binding.parameters, GroupedBinding.parameters, hbound, htrailing]
    exact hspreads.consumes_rowsFor hvalid hnames hmarkers hp _
  · rintro ⟨db, dbAlgorithm, hdb⟩ ⟨tb, tbAlgorithm, htb⟩ x hx hvalue
    exact hspreads.countP_eq_one hdb htb hx hvalue

/-! ### Two orders in four tables -/

/-- Orders are spread over two data sources by their users and over two tables by their numbers,
which are generated.  Some tables are on every data source. -/
def gridConfig (broadcast : List String) : RuleConfig :=
  { dataSources := ["ds_0", "ds_1"]
    tables := [{
      logicTable := "t_order"
      nodes := some "ds_0.t_order_0,ds_0.t_order_1,ds_1.t_order_0,ds_1.t_order_1"
      databaseStrategy := some (.standard "user_id" "by_two")
      tableStrategy := some (.standard "order_id" "by_two")
      key := some ⟨"order_id", "increment"⟩ }]
    broadcastTables := broadcast
    algorithms := ⟨[("by_two", { type := "MOD", properties := ⟨[("sharding-count", "2")]⟩ })]⟩
    keyGenerators := ⟨[("increment", { type := "INCREMENT" })]⟩ }

/-- The rule of the four tables. -/
def gridTable : TableRule :=
  ⟨"t_order", [⟨"ds_0", "t_order_0"⟩, ⟨"ds_0", "t_order_1"⟩, ⟨"ds_1", "t_order_0"⟩,
    ⟨"ds_1", "t_order_1"⟩], .standard "user_id" (.mod 2), .standard "order_id" (.mod 2),
    some ⟨"order_id", "increment"⟩⟩

/-- The rule of orders in four tables. -/
def gridRule (broadcast : List String) : Rule :=
  ⟨[("t_order", gridTable)], [], broadcast, ["ds_0", "ds_1"], none, {}, [],
    ⟨[("increment", .increment 1 1)]⟩⟩

/-- An insertion of two orders. -/
def twoOrders : Insert :=
  .ofValues (.ofName "t_order" 12) [.ofName "user_id" 21] 28
    [⟨[.markerAt 0 38], 37, 39⟩, ⟨[.markerAt 1 43], 42, 44⟩]

/-- Orders of two users. -/
def twoUsers : LogicalSql where
  text := "INSERT INTO t_order (user_id) VALUES (?), (?)"
  statement := .insert twoOrders
  parameters := [.int 10, .int 11]

/-- The first order goes to the first data source and the second one to the second. -/
def twoRouting : Routing where
  placements := [⟨.same "ds_0", [⟨"t_order", "t_order_1"⟩]⟩,
    ⟨.same "ds_1", [⟨"t_order", "t_order_0"⟩]⟩]
  rowNodes := [[⟨"ds_0", "t_order_1"⟩], [⟨"ds_1", "t_order_0"⟩]]

/-- All orders go to both data sources. -/
def bothRouting : Routing where
  placements := [⟨.same "ds_0", [.same "t_order"]⟩, ⟨.same "ds_1", [.same "t_order"]⟩]

/-- The insertion after routing. -/
def twoRouted (routing : Routing) : Routed :=
  ⟨twoUsers, routing, some ⟨"order_id", true, [.int 1, .int 2]⟩⟩

/-- The counters after two keys. -/
def afterTwoKeys : Rule.Counters :=
  { generators := ⟨[("increment", .increment 3 1)]⟩
    readings := { clock := ⟨[], Snowflake.epoch⟩ } }

theorem hasDistinctNames_gridTable : gridTable.HasDistinctNames := by
  unfold TableRule.HasDistinctNames
  decide +kernel

/-- Both orders have a user and a generated number. -/
theorem hasValue_twoOrders (routing : Routing) {x : ValueRow × Nat}
    (hx : x ∈ twoOrders.rows.zipIdx) : ∀ column ∈ gridTable.shardingColumns,
      twoOrders.HasValue twoUsers.parameters (twoRouted routing).key x.1 column := by
  intro column hcolumn
  rcases List.mem_cons.1 hcolumn with rfl | hcolumn
  · left
    rcases List.mem_cons.1 hx with rfl | hx
    · exact ⟨_, List.mem_cons_self .., Text.sameName_refl _, rfl⟩
    · cases List.mem_singleton.1 hx
      exact ⟨_, List.mem_cons_self .., Text.sameName_refl _, rfl⟩
  · cases List.mem_singleton.1 hcolumn
    exact .inr ⟨_, rfl, rfl, Text.sameName_refl _⟩

namespace LogicalSql

/-- The second order goes to a single one of two placements. -/
theorem inserted_rows_spec_two :
    Rule.ofConfig .builtin (gridConfig []) = .ok (gridRule []) ∧
      ∃ r s' statements,
        (twoUsers.route (gridRule [])).run.run (gridRule []).start = (.ok r, s') ∧
        r.physical (gridRule []) = .ok statements ∧ r.routing.placements.length = 2 ∧
        r.routing.placements.countP (r.sends "t_order" 1) = 1 := by
  have hrule : Rule.ofConfig .builtin (gridConfig []) = .ok (gridRule []) := by decide +kernel
  have hroute : (twoUsers.route (gridRule [])).run.run (gridRule []).start =
      (.ok (twoRouted twoRouting), afterTwoKeys) := rfl
  have hphysical : (twoRouted twoRouting).physical (gridRule []) =
      .ok [⟨"ds_0", "INSERT INTO t_order_1 (user_id, order_id) VALUES (?, ?)", [.int 10, .int 1]⟩,
        ⟨"ds_1", "INSERT INTO t_order_0 (user_id, order_id) VALUES (?, ?)",
          [.int 11, .int 2]⟩] := by
    rw [Routed.physical_of_pairwise (by decide +kernel)]
    decide +kernel
  have hencrypt : ∀ columns ∈ (gridRule []).encrypt.columns? twoOrders.table.name,
      columns = [] := fun columns hcolumns => by cases hcolumns
  have hsecond : (⟨[.markerAt 1 43], 1⟩, 1) ∈ twoOrders.rows.zipIdx := by decide
  obtain ⟨-, -, honce⟩ := inserted_rows_spec hrule rfl rfl (List.cons_ne_nil _ _) rfl
    hasDistinctNames_gridTable rfl hencrypt rfl hroute hphysical
  exact ⟨hrule, _, _, _, hroute, hphysical, rfl,
    honce ⟨_, _, rfl⟩ ⟨_, _, rfl⟩ _ hsecond (hasValue_twoOrders _ hsecond)⟩

/-- Rows of a table that is also on every data source have no nodes, and all of them are inserted
into each data source. -/
theorem inserted_rows_of_broadcast :
    Rule.ofConfig .builtin (gridConfig ["t_order"]) = .ok (gridRule ["t_order"]) ∧
      (gridRule ["t_order"]).table? twoOrders.table.name = some gridTable ∧
      gridTable.HasDistinctNames ∧ twoOrders.markers = List.range twoUsers.parameters.length ∧
      ∃ r s',
        (twoUsers.route (gridRule ["t_order"])).run.run (gridRule ["t_order"]).start =
          (.ok r, s') ∧
        r.physical (gridRule ["t_order"]) = .ok
          [⟨"ds_0", "INSERT INTO t_order (user_id, order_id) VALUES (?, ?), (?, ?)",
            [.int 10, .int 1, .int 11, .int 2]⟩,
          ⟨"ds_1", "INSERT INTO t_order (user_id, order_id) VALUES (?, ?), (?, ?)",
            [.int 10, .int 1, .int 11, .int 2]⟩] ∧
        ∀ x ∈ twoOrders.rows.zipIdx,
          (∀ column ∈ gridTable.shardingColumns,
            twoOrders.HasValue twoUsers.parameters r.key x.1 column) ∧
          ∀ p ∈ r.routing.placements, r.sends "t_order" x.2 p = false := by
  have hnever : ∀ x ∈ twoOrders.rows.zipIdx, ∀ p ∈ bothRouting.placements,
      (twoRouted bothRouting).sends "t_order" x.2 p = false := by decide +kernel
  refine ⟨by decide +kernel, rfl, hasDistinctNames_gridTable, rfl, twoRouted bothRouting,
    afterTwoKeys, rfl, ?_, fun x hx => ⟨hasValue_twoOrders _ hx, hnever x hx⟩⟩
  rw [Routed.physical_of_pairwise (by decide +kernel)]
  decide +kernel

end LogicalSql

end ShardedSql
