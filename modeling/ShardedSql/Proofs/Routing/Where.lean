/-
**No row is lost by routing.**

The rows that a statement looks for are spread as their own values say, while the statement is
routed by what its condition says of all of them.  Every row of which the condition may be true
meets the constraints that are gathered from it, and a constraint leaves the targets of every
integer that meets it.  So on either axis, and thus for the nodes, no target of the row is lost.

Main definitions:

* `ShardedSql.Condition.pin` — the condition that only a row with the same values meets.

Main results:

* `ShardedSql.TableRule.nodesFor_pin_subset` — **the nodes of a row are among those of every
  condition that it meets**;
* `ShardedSql.LogicalSql.reaches_iff_left` — a statement reaches exactly the nodes that its
  condition leaves;
* `ShardedSql.LogicalSql.route_reaches_row` — **a statement reaches every node of a row that it
  looks for**.
-/

import ShardedSql.Proofs.Condition
import ShardedSql.Proofs.Routing.Single
import ShardedSql.Proofs.Rule.Build

set_option relaxedAutoImplicit false
set_option autoImplicit false

namespace ShardedSql

variable {rule : Rule} {t : TableRule} {row : IntRow}

/-! ### Rows as conditions -/

/-- What the values of a row say of the columns that a table is spread by. -/
def Condition.pin (t : TableRule) (row : IntRow) : Condition :=
  { values := t.shardingColumns.map fun column =>
      ⟨t.logicTable, column, .oneOf [.int (row.at column)], []⟩ }

namespace TableRule

theorem constraint?_pin {column : String} (h : column ∈ t.shardingColumns) :
    t.constraint? (some (Condition.pin t row)) (some column) =
      some (.oneOf [.int (row.at column)]) := by
  have hfound : ((Condition.pin t row).find? t.logicTable column).isSome = true := by
    rw [Condition.find?, List.find?_isSome]
    refine ⟨_, List.mem_map_of_mem h, ?_⟩
    rw [ColumnConstraint.isAbout, Text.sameName_refl, Text.sameName_refl]
    rfl
  obtain ⟨v, hv⟩ := Option.isSome_iff_exists.1 hfound
  obtain ⟨c, -, rfl⟩ := List.mem_map.1 (List.mem_of_find?_eq_some hv)
  have habout := List.find?_some hv
  rw [ColumnConstraint.isAbout, Bool.and_eq_true] at habout
  rw [constraint?, hv, ← row.at_congr habout.2]
  rfl

/-- What a condition that a row meets says of a column is met by the value of the row. -/
theorem meets_constraint? {condition : Option Condition} (h : ∀ c ∈ condition, c.MetBy row)
    {column : String} : ∀ k ∈ t.constraint? condition (some column), k.Meets (row.at column) := by
  intro k hk
  cases condition with
  | none => cases hk
  | some c =>
      obtain ⟨v, hv, rfl⟩ := Option.map_eq_some_iff.1 hk
      have habout := List.find?_some hv
      rw [ColumnConstraint.isAbout, Bool.and_eq_true] at habout
      rw [← row.at_congr habout.2]
      exact h c rfl v (List.mem_of_find?_eq_some hv)

/-- On either axis the targets of a row are among those of every condition that it meets. -/
theorem targets_pin_subset {s : Strategy} (hvalid : s.IsValid)
    (hcolumn : ∀ column ∈ s.column?, column ∈ t.shardingColumns) {condition : Option Condition}
    (h : ∀ c ∈ condition, c.MetBy row) {available names pins : List String}
    (hnames : s.targets available t.logicTable (t.constraint? condition s.column?) = .ok names)
    (hpins : s.targets available t.logicTable
      (t.constraint? (some (Condition.pin t row)) s.column?) = .ok pins) :
    ∀ name ∈ pins, name ∈ names := by
  cases s with
  | none =>
      cases hnames
      cases hpins
      exact fun _ hname => hname
  | standard column algorithm =>
      simp only [Strategy.column?] at hnames hpins hcolumn
      rw [constraint?_pin (hcolumn column rfl)] at hpins
      exact Strategy.targets_of_meets hvalid (meets_constraint? h) hnames hpins

theorem mem_shardingColumns_of_database (t : TableRule) :
    ∀ column ∈ t.database.column?, column ∈ t.shardingColumns := fun _ hcolumn =>
  List.mem_append_left _ (Option.mem_toList.2 hcolumn)

theorem mem_shardingColumns_of_table (t : TableRule) :
    ∀ column ∈ t.table.column?, column ∈ t.shardingColumns := fun _ hcolumn =>
  List.mem_append_right _ (Option.mem_toList.2 hcolumn)

/-- **The nodes of a row are among those of every condition that it meets.** -/
theorem nodesFor_pin_subset (hvalid : t.IsValid) {condition : Option Condition}
    (h : ∀ c ∈ condition, c.MetBy row) {nodes pins : List DataNode}
    (hnodes : t.nodesFor condition = .ok nodes)
    (hpins : t.nodesFor (some (Condition.pin t row)) = .ok pins) : ∀ n ∈ pins, n ∈ nodes := by
  intro n hn
  obtain ⟨pinSources, hpinSources, hpinSource, hpinSpec⟩ := nodesFor_spec hpins
  obtain ⟨sources, hsources, -, hspec⟩ := nodesFor_spec hnodes
  have hsource : n.dataSource ∈ sources := targets_pin_subset hvalid.database
    t.mem_shardingColumns_of_database h hsources hpinSources n.dataSource (hpinSource n hn)
  obtain ⟨pinTables, hpinTables, hpinMem⟩ := hpinSpec n.dataSource (hpinSource n hn)
  obtain ⟨tables, htables, hmem⟩ := hspec n.dataSource hsource
  exact (hmem n rfl).2 (targets_pin_subset hvalid.table t.mem_shardingColumns_of_table h
    htables hpinTables n.table ((hpinMem n rfl).1 hn))

end TableRule

/-! ### Statements -/

namespace Routing

/-- The placements of a single table under at most one condition, which rows can meet: one at each
node that is left. -/
theorem mem_placements_of_ofBound {name : String} (ht : rule.table? name = some t)
    {conditions : List Condition} (hone : conditions.length ≤ 1)
    (hmeetable : ∀ c ∈ conditions, c.alwaysFalse = false) {r : Routing}
    (h : ofBound rule [name] conditions = .ok r) :
    ∃ nodes, t.nodesFor conditions.head? = .ok nodes ∧
      ∀ p, p ∈ r.placements ↔ ∃ n ∈ nodes, placementOf name n = p := by
  cases conditions with
  | nil =>
      obtain ⟨nodes, hnodes, rfl⟩ := ofBound_nil_eq_ok ht h
      exact ⟨nodes, hnodes, fun p => by rw [mem_ofPlacements, List.mem_map]⟩
  | cons c rest =>
      cases List.length_eq_zero_iff.1 (Nat.le_zero.1 (Nat.le_of_succ_le_succ hone))
      obtain ⟨hnodes, hplacements⟩ := ofBound_eq_ok ht (List.cons_ne_nil c []) hmeetable h
      obtain ⟨nodes, rest, hfor, hrest, hrow⟩ := List.forall₂_cons_left_iff.1 hnodes
      cases List.forall₂_nil_left_iff.1 hrest
      refine ⟨nodes, hfor, fun p => ?_⟩
      rw [hplacements, hrow, List.mem_eraseDups, List.flatten_singleton, List.mem_map]

end Routing

/-- When the tables before and after one are not sharded, no other one is. -/
theorem Rule.eq_of_isSharded {before after : List TableRef} {ref : TableRef}
    (hbefore : ∀ x ∈ before, rule.isSharded x.name = false)
    (hafter : ∀ x ∈ after, rule.isSharded x.name = false) :
    ∀ x ∈ before ++ ref :: after, rule.isSharded x.name = true → x = ref := by
  intro x hx hsharded
  rcases List.mem_append.1 hx with hx | hx
  · rw [hbefore x hx] at hsharded
    cases hsharded
  · rcases List.mem_cons.1 hx with rfl | hx
    · rfl
    · rw [hafter x hx] at hsharded
      cases hsharded

/-- A statement that looks for rows and does not change them. -/
def Statement.LooksForRows (s : Statement) : Prop :=
  (∃ q, s = .select q) ∨ ∃ d, s = .delete d

theorem Statement.LooksForRows.isOnRows {s : Statement} (h : s.LooksForRows) : s.IsOnRows := by
  rcases h with ⟨q, rfl⟩ | ⟨d, rfl⟩ <;> trivial

/-- The conditions of a statement that looks for rows are those of its predicate. -/
theorem Statement.LooksForRows.conditions {s : Statement} (h : s.LooksForRows)
    {parameters : List Value} {key : Option GeneratedKey} {conditions : List Condition}
    (hof : Condition.ofStatement rule s parameters key = .ok conditions) :
    conditions = Condition.ofWhere rule s.tables s.condition? parameters := by
  rcases h with ⟨q, rfl⟩ | ⟨d, rfl⟩ <;> exact (Except.ok.inj hof).symm

/-- **What a statement that looks for rows of a single table reaches**: the nodes that its condition
leaves, and none where no row can meet the condition. -/
theorem LogicalSql.reaches_iff_left {sql : LogicalSql} (hkind : sql.statement.LooksForRows)
    {name : String} (ht : rule.table? name = some t)
    (hsharded : rule.shardedAmong sql.statement.tableNames = [name])
    (hbroadcast : rule.allBroadcast sql.statement.tableNames = false) {conditions : List Condition}
    (hof : Condition.ofWhere rule sql.statement.tables sql.statement.condition? sql.parameters =
      conditions)
    (hone : conditions.length ≤ 1) {s s' : Rule.Counters} {r : Routed}
    (hroute : (sql.route rule).run.run s = (.ok r, s')) :
    ((∀ c ∈ conditions, c.alwaysFalse = false) →
      ∃ left, t.nodesFor conditions.head? = .ok left ∧ ∀ n, n ∈ left ↔
        ∃ p ∈ r.routing.placements,
          p.source.logic = n.dataSource ∧ p.actual? name = some n.table) ∧
    (Condition.allFalse conditions = true →
      ∀ p ∈ r.routing.placements, p.actual? name = none) := by
  obtain ⟨_, routing, _, hof', -, hrouting, -, -, hextends, hnowhere⟩ :=
    route_eq_ok hkind.isOnRows hbroadcast hsharded hroute
  rw [hkind.conditions hof', hof] at hrouting
  -- without tables a placement has no actual table
  have hnone (h : routing.placements = []) : ∀ p ∈ r.routing.placements, p.actual? name = none := by
    intro p hp
    rw [Placement.actual?, hnowhere h p hp]
    rfl
  constructor
  · intro hmeetable
    obtain ⟨left, hleft, hmem⟩ := Routing.mem_placements_of_ofBound ht hone hmeetable hrouting
    refine ⟨left, hleft, fun n => ⟨fun hn => ?_, ?_⟩⟩
    · have hplacement := (hmem _).2 ⟨n, hn, rfl⟩
      obtain ⟨p, hp, hfrom⟩ := Lists.exists_of_forall₂
        (hextends (List.ne_nil_of_mem hplacement)) hplacement
      exact ⟨p, hp, hfrom.logic, Routing.actual?_of_extends hfrom⟩
    · rintro ⟨p, hp, hsource, hactual⟩
      have hne : routing.placements ≠ [] := fun h => by
        rw [hnone h p hp] at hactual
        cases hactual
      -- it comes from the placement at a node that is left, which can only be this one
      obtain ⟨q, hq, hfrom⟩ := Lists.exists_of_forall₂_right (hextends hne) hp
      obtain ⟨m, hm, rfl⟩ := (hmem q).1 hq
      rw [Routing.actual?_of_extends hfrom] at hactual
      have hsame : m = n := by
        obtain ⟨source, table⟩ := n
        cases hfrom.logic.symm.trans hsource
        cases hactual
        rfl
      exact hsame ▸ hm
  · intro hfalse
    rw [Routing.ofBound_never rule [name] hfalse] at hrouting
    cases hrouting
    exact hnone rfl

/-- **A statement reaches every node of a row that it looks for.**  It names a single table that is
spread, and the values that it compares with columns by which the table is spread are integers. -/
theorem LogicalSql.route_reaches_row {registry : Registry} {config : RuleConfig}
    (hrule : Rule.ofConfig registry config = .ok rule) {sql : LogicalSql}
    (hkind : sql.statement.LooksForRows)
    {before after : List TableRef} {ref : TableRef}
    (htables : sql.statement.tables = before ++ ref :: after)
    (ht : rule.table? ref.name = some t)
    (hbefore : ∀ x ∈ before, rule.isSharded x.name = false)
    (hafter : ∀ x ∈ after, rule.isSharded x.name = false)
    (hbroadcast : rule.allBroadcast sql.statement.tableNames = false)
    (hints : ∀ p ∈ sql.statement.condition?, p.IsOnInts rule ref sql.parameters)
    (hrow : ∀ p ∈ sql.statement.condition?, p.MayHold rule ref sql.parameters row)
    {s s' : Rule.Counters} {r : Routed} (hroute : (sql.route rule).run.run s = (.ok r, s'))
    {nodes : List DataNode} (hnodes : t.nodesFor (some (Condition.pin t row)) = .ok nodes) :
    ∀ n ∈ nodes, ∃ p ∈ r.routing.placements,
      p.source.logic = n.dataSource ∧ p.actual? ref.name = some n.table := by
  intro n hn
  have hsharded : rule.isSharded ref.name = true := (rule.isSharded_iff _).2 ⟨t, ht⟩
  have hsingle : ∀ x ∈ sql.statement.tables, rule.isSharded x.name = true → x = ref :=
    htables ▸ Rule.eq_of_isSharded hbefore hafter
  -- the row meets what is gathered from the predicate
  have hmet := Condition.ofWhere_spec hsingle hints hrow
  generalize hof : Condition.ofWhere rule sql.statement.tables sql.statement.condition?
    sql.parameters = conditions at hmet
  have hhead := Condition.metBy_of_mem_head? hmet
  have hmeetable : conditions.length ≤ 1 ∧ ∀ c ∈ conditions, c.alwaysFalse = false := by
    rcases hmet with rfl | ⟨c, rfl, hfalse, -⟩
    · exact ⟨Nat.zero_le 1, fun c hc => by cases hc⟩
    · exact ⟨Nat.le_refl 1, List.forall_mem_singleton.2 hfalse⟩
  -- so none of its nodes is left out, and each of them gets a placement
  obtain ⟨left, hleft, hreached⟩ := (reaches_iff_left hkind ht
    (Routing.shardedAmong_tableNames htables hsharded hbefore hafter) hbroadcast hof
    hmeetable.1 hroute).1 hmeetable.2
  exact (hreached n).1 (TableRule.nodesFor_pin_subset (Rule.isValid_of_table? hrule ht) hhead hleft
    hnodes n hn)

/-! ### An order on two data sources -/

/-- Orders are spread over two data sources by the remainders of their numbers, and some tables
are on every data source. -/
def ordersConfig (broadcast : List String) : RuleConfig :=
  { dataSources := ["ds_0", "ds_1"]
    tables := [{
      logicTable := "t_order"
      databaseStrategy := some (.standard "order_id" "by_two") }]
    broadcastTables := broadcast
    algorithms := ⟨[("by_two", { type := "MOD", properties := ⟨[("sharding-count", "2")]⟩ })]⟩ }

/-- The rule of the table of orders. -/
def ordersTable : TableRule :=
  ⟨"t_order", [⟨"ds_0", "t_order"⟩, ⟨"ds_1", "t_order"⟩], .standard "order_id" (.mod 2), .none,
    none⟩

/-- The rule of orders. -/
def ordersRule (broadcast : List String) : Rule :=
  ⟨[("t_order", ordersTable)], [], broadcast, ["ds_0", "ds_1"], none, {}, [], {}⟩

/-- A search for the order with the number of a parameter, which is below three. -/
def orderQuery : LogicalSql where
  text := "SELECT * FROM t_order WHERE order_id = ? AND order_id < 3"
  statement := .select {
    tables := [.ofName "t_order" 14]
    condition := some (.and [.compare (.ofName "order_id" 28) .eq (.markerAt 0 39),
      .compare (.ofName "order_id" 45) .lt (.literal (.int 3) 56 56)]) }
  parameters := [.int 1]

theorem isOnInts_orderQuery (rule : Rule) (ref : TableRef) :
    ∀ p ∈ orderQuery.statement.condition?, p.IsOnInts rule ref orderQuery.parameters := by
  intro p hp
  cases hp
  intro leaf hleaf c _ _ e he v hv
  rcases List.mem_cons.1 hleaf with rfl | hleaf
  · cases List.mem_singleton.1 he
    cases hv
    exact ⟨1, rfl⟩
  · cases List.mem_singleton.1 hleaf
    cases List.mem_singleton.1 he
    cases hv
    exact ⟨3, rfl⟩

/-- The query may find a row of ones. -/
theorem mayHold_orderQuery (rule : Rule) (ref : TableRef) :
    ∀ p ∈ orderQuery.statement.condition?,
      p.MayHold rule ref orderQuery.parameters (fun _ => 1) := by
  intro p hp
  cases hp
  refine ⟨fun c _ _ m hm => ?_, fun c _ _ m hm => ?_, trivial⟩
  · cases hm
    rfl
  · cases hm
    have hlt : (1 : Int64).toInt < (3 : Int64).toInt := by decide
    exact hlt

namespace LogicalSql

/-- The query for the first order reaches the second data source, where its row is. -/
theorem route_reaches_row_order :
    Rule.ofConfig .builtin (ordersConfig []) = .ok (ordersRule []) ∧
      ∃ r s', (orderQuery.route (ordersRule [])).run.run (ordersRule []).start = (.ok r, s') ∧
        ∃ p ∈ r.routing.placements,
          p.source.logic = "ds_1" ∧ p.actual? "t_order" = some "t_order" := by
  have hrule : Rule.ofConfig .builtin (ordersConfig []) = .ok (ordersRule []) := by
    decide +kernel
  have htables : orderQuery.statement.tables = [] ++ .ofName "t_order" 14 :: [] := rfl
  have hnone : ∀ x ∈ ([] : List TableRef), (ordersRule []).isSharded x.name = false :=
    fun x hx => by cases hx
  have hnodes : ordersTable.nodesFor (some (.pin ordersTable fun _ => 1)) =
      .ok [⟨"ds_1", "t_order"⟩] := by decide +kernel
  have hroute : (orderQuery.route (ordersRule [])).run.run (ordersRule []).start =
      (.ok ⟨orderQuery, ⟨[⟨.same "ds_1", [.same "t_order"]⟩], [[⟨"ds_1", "t_order"⟩]]⟩, none⟩,
        (ordersRule []).start) := rfl
  exact ⟨hrule, _, _, hroute, route_reaches_row hrule (.inl ⟨_, rfl⟩) htables rfl hnone hnone rfl
    (isOnInts_orderQuery _ _) (mayHold_orderQuery _ _) hroute hnodes _ (List.mem_singleton.2 rfl)⟩

/-- A table that is also on every data source is read from the first one, although its rows are
spread: the row of the first order is not looked for where it is. -/
theorem route_of_broadcast :
    Rule.ofConfig .builtin (ordersConfig ["t_order"]) = .ok (ordersRule ["t_order"]) ∧
      (ordersRule ["t_order"]).table? "t_order" = some ordersTable ∧
      orderQuery.statement.tables = [.ofName "t_order" 14] ∧
      (∀ p ∈ orderQuery.statement.condition?,
        p.IsOnInts (ordersRule ["t_order"]) (.ofName "t_order" 14) orderQuery.parameters) ∧
      (∀ p ∈ orderQuery.statement.condition?,
        p.MayHold (ordersRule ["t_order"]) (.ofName "t_order" 14) orderQuery.parameters
          fun _ => 1) ∧
      ordersTable.nodesFor (some (.pin ordersTable fun _ => 1)) = .ok [⟨"ds_1", "t_order"⟩] ∧
      ∃ r s', (orderQuery.route (ordersRule ["t_order"])).run.run
          (ordersRule ["t_order"]).start = (.ok r, s') ∧
        ∀ p ∈ r.routing.placements, p.covers ⟨"ds_1", "t_order"⟩ = false := by
  refine ⟨by decide +kernel, rfl, rfl, isOnInts_orderQuery _ _, mayHold_orderQuery _ _,
    by decide +kernel, ⟨orderQuery, ⟨[⟨.same "ds_0", [.same "t_order"]⟩], []⟩, none⟩,
    (ordersRule ["t_order"]).start, rfl, fun p hp => ?_⟩
  cases List.mem_singleton.1 hp
  decide +kernel

end LogicalSql

end ShardedSql
