/-
**Where the rows of an insertion go.**

A row has a single value for each column that it gives, and a column without a value is not looked
at.  So no row is without nodes, and a row that gives every column by which its table is spread on
both axes has a single one.  Each placement is at a node of some row, and equal ones are kept once.

Main definitions:

* `ShardedSql.Condition.IsPointwise` — a condition gives columns single values;
* `ShardedSql.Insert.HasValue` — a row has a value for a column;
* `ShardedSql.Placement.node?` — the node of a table that a placement reaches;
* `ShardedSql.Routed.Spreads` — **what the routing of an insertion is like**.

Main results:

* `ShardedSql.TableRule.nodesFor_ne_nil`, `ShardedSql.TableRule.exists_of_nodesFor_single` — a row
  has a node, and a single one when it gives both columns;
* `ShardedSql.GeneratedKey.length_values` — **a key is generated for each row**;
* `ShardedSql.LogicalSql.spreads_of_route` — an insertion is routed like that;
* `ShardedSql.Routed.Spreads.countP_eq_one` — **a row that gives both columns goes to a single
  placement**.
-/

import ShardedSql.Proofs.Routing.Single
import ShardedSql.Proofs.Rule.Build

set_option relaxedAutoImplicit false
set_option autoImplicit false

namespace ShardedSql

variable {rule : Rule} {t : TableRule}

/-! ### Single values -/

/-- A condition gives columns single values. -/
def Condition.IsPointwise (c : Condition) : Prop := ∀ v ∈ c.values, ∃ x, v.constraint = .oneOf [x]

namespace TableRule

theorem exists_of_constraint? {c : Condition} (hc : c.IsPointwise) (column : Option String) :
    ∀ k ∈ t.constraint? (some c) column, ∃ v, k = .oneOf [v] := by
  intro k hk
  cases column with
  | none => cases hk
  | some column =>
      obtain ⟨v, hv, rfl⟩ := Option.map_eq_some_iff.1 hk
      exact hc v (List.mem_of_find?_eq_some hv)

/-- **A row has a node.** -/
theorem nodesFor_ne_nil (hvalid : t.IsValid) {c : Condition} (hc : c.IsPointwise)
    {nodes : List DataNode} (h : t.nodesFor (some c) = .ok nodes) : nodes ≠ [] := by
  obtain ⟨sources, hsources, -, hspec⟩ := nodesFor_spec h
  have hdataSources : t.dataSources ≠ [] := by
    obtain ⟨n, hn⟩ := List.exists_mem_of_ne_nil _ hvalid.nodes_ne_nil
    exact List.ne_nil_of_mem (List.mem_eraseDups.2 (List.mem_map_of_mem hn))
  obtain ⟨source, hsource⟩ := List.exists_mem_of_ne_nil _
    (Strategy.targets_ne_nil hdataSources (exists_of_constraint? hc _) hsources)
  obtain ⟨tables, htables, hmem⟩ := hspec source hsource
  have htablesIn : t.tablesIn source ≠ [] := by
    obtain ⟨n, hn, rfl⟩ := List.mem_map.1
      (List.mem_eraseDups.1 (Strategy.targets_subset hsources source hsource))
    exact List.ne_nil_of_mem ((t.mem_tablesIn n.dataSource n.table).2 hn)
  obtain ⟨table, htable⟩ := List.exists_mem_of_ne_nil _
    (Strategy.targets_ne_nil htablesIn (exists_of_constraint? hc _) htables)
  exact List.ne_nil_of_mem ((hmem ⟨source, table⟩ rfl).2 htable)

/-- **A row that gives the columns of both axes has a single node.** -/
theorem exists_of_nodesFor_single {db tb : String} {dbAlgorithm tbAlgorithm : Algorithm}
    (hdb : t.database = .standard db dbAlgorithm) (htb : t.table = .standard tb tbAlgorithm)
    {c : Condition} {v w : Value} (hv : t.constraint? (some c) (some db) = some (.oneOf [v]))
    (hw : t.constraint? (some c) (some tb) = some (.oneOf [w])) {nodes : List DataNode}
    (h : t.nodesFor (some c) = .ok nodes) : ∃ n ∈ nodes, ∀ m ∈ nodes, m = n := by
  obtain ⟨sources, hsources, hsource, hspec⟩ := nodesFor_spec h
  rw [sourcesFor, hdb, Strategy.column?, hv] at hsources
  obtain ⟨source, hmem, honly⟩ := Strategy.exists_of_targets_single hsources
  obtain ⟨tables, htables, hnodes⟩ := hspec source hmem
  rw [tablesFor, htb, Strategy.column?, hw] at htables
  obtain ⟨table, htable, honlyTable⟩ := Strategy.exists_of_targets_single htables
  refine ⟨⟨source, table⟩, (hnodes ⟨source, table⟩ rfl).2 htable, fun m hm => ?_⟩
  have hmsource := honly m.dataSource (hsource m hm)
  have hmtable := honlyTable m.table ((hnodes m hmsource).1 hm)
  cases m
  cases hmsource
  cases hmtable
  rfl

end TableRule

/-! ### Generated keys -/

theorem Rule.length_nextKeys {name : String} {n : Nat} {keys : List Value}
    {s s' : Rule.Counters} (h : (Rule.nextKeys name n).run.run s = (.ok keys, s')) :
    keys.length = n := by
  induction n generalizing keys s s' with
  | zero =>
      obtain ⟨rfl, -⟩ := Stateful.pure_eq_ok.1 h
      rfl
  | succ n ih =>
      obtain ⟨key, s₁, -, h⟩ := Stateful.bind_eq_ok.1 h
      obtain ⟨rest, s₂, hrest, h⟩ := Stateful.bind_eq_ok.1 h
      obtain ⟨rfl, -⟩ := Stateful.pure_eq_ok.1 h
      rw [List.length_cons, ih hrest]

theorem Rule.length_generateKeys {name : String} {n : Nat} {keys : List Value}
    {s s' : Rule.Counters} (h : (rule.generateKeys name n).run.run s = (.ok keys, s')) :
    keys.length = n := by
  obtain ⟨t, s₁, -, h⟩ := Stateful.bind_eq_ok.1 h
  split at h
  · exact absurd h Stateful.throw_ne_ok
  · exact Rule.length_nextKeys h

/-- **A key is generated for each row.** -/
theorem GeneratedKey.length_values {i : Insert} {parameters : List Value}
    {key : Option GeneratedKey} {s s' : Rule.Counters}
    (h : (GeneratedKey.ofInsert rule i parameters).run.run s = (.ok key, s')) :
    ∀ k ∈ key, k.generated = true → k.values.length = i.rows.length := by
  unfold GeneratedKey.ofInsert at h
  intro k hk hgenerated
  split at h
  · obtain ⟨rfl, -⟩ := Stateful.pure_eq_ok.1 h
    cases hk
  · split at h
    · obtain ⟨rfl, -⟩ := Stateful.pure_eq_ok.1 h
      cases hk
      cases hgenerated
    · split at h
      · exact absurd h Stateful.throw_ne_ok
      · obtain ⟨values, s₁, hvalues, h⟩ := Stateful.bind_eq_ok.1 h
        obtain ⟨rfl, -⟩ := Stateful.pure_eq_ok.1 h
        cases hk
        exact Rule.length_generateKeys hvalues

/-- A key that is generated on the way has a value for each row. -/
theorem LogicalSql.length_keys_of_route {sql : LogicalSql} {i : Insert}
    (hinsert : sql.statement = .insert i) {s s' : Rule.Counters} {r : Routed}
    (hroute : (sql.route rule).run.run s = (.ok r, s')) :
    r.sql = sql ∧ ∀ k ∈ r.key, k.generated = true → k.values.length = i.rows.length := by
  obtain ⟨conditions, routing, s₁, hconditions, -, -, hsql⟩ := route_steps hroute
  exact ⟨hsql, GeneratedKey.length_values ((conditions_eq_ok hconditions).2 i hinsert)⟩

/-! ### The conditions of rows -/

theorem Insert.map_exprs_rowsFrom (offset : Nat) (exprs : List (List Expr)) :
    (Insert.rowsFrom offset exprs).map (·.exprs) = exprs := by
  induction exprs generalizing offset with
  | nil => rfl
  | cons e rest ih => rw [Insert.rowsFrom, List.map_cons, ih]

theorem Insert.map_exprs_rows (i : Insert) : i.rows.map (·.exprs) = i.rowExprs :=
  Insert.map_exprs_rowsFrom 0 i.rowExprs

/-- A row has a value for a column: an expression that stands for one, or a generated key. -/
def Insert.HasValue (i : Insert) (parameters : List Value) (key : Option GeneratedKey)
    (row : ValueRow) (column : String) : Prop :=
  (∃ x ∈ i.columnNames.zip row.exprs, Text.sameName x.1 column = true ∧
    (x.2.resolve parameters).isSome = true) ∨
  ∃ k ∈ key, k.generated = true ∧ Text.sameName k.column column = true

namespace Condition

variable {i : Insert} {parameters : List Value} {key : Option GeneratedKey} {row : Nat}

theorem isPointwise_ofRow (exprs : List Expr) :
    (ofRow t i parameters key row exprs).IsPointwise := by
  intro v hv
  rcases List.mem_append.1 hv with hv | hv
  · obtain ⟨p, -, hp⟩ := List.mem_filterMap.1 hv
    split at hp
    · obtain ⟨x, -, rfl⟩ := Option.map_eq_some_iff.1 hp
      exact ⟨x, rfl⟩
    · cases hp
  · unfold keyValues at hv
    split at hv
    · split at hv
      · obtain ⟨x, -, rfl⟩ := List.mem_map.1 hv
        exact ⟨x, rfl⟩
      · cases hv
    · cases hv

theorem isShardingColumn_of_sameName {name column : String} (hcolumn : column ∈ t.shardingColumns)
    (h : Text.sameName name column = true) : t.isShardingColumn name = true := by
  rw [TableRule.isShardingColumn, List.any_eq_true]
  exact ⟨column, hcolumn, by rw [Text.sameName_comm]; exact h⟩

/-- A column that a row has a value for is known. -/
theorem constraint?_ofRow {r : ValueRow} {column : String} (hcolumn : column ∈ t.shardingColumns)
    (hkeys : ∀ k ∈ key, k.generated = true → row < k.values.length)
    (h : i.HasValue parameters key r column) :
    ∃ v, t.constraint? (some (ofRow t i parameters key row r.exprs)) (some column) =
      some (.oneOf [v]) := by
  have hfound :
      ((ofRow t i parameters key row r.exprs).find? t.logicTable column).isSome = true := by
    rw [find?, List.find?_isSome]
    rcases h with ⟨x, hx, hname, hvalue⟩ | ⟨k, hk, hgenerated, hname⟩
    · -- the value is given in the row
      obtain ⟨v, hv⟩ := Option.isSome_iff_exists.1 hvalue
      refine ⟨⟨t.logicTable, x.1, .oneOf [v], x.2.marker?.toList⟩,
        List.mem_append_left _ (List.mem_filterMap.2 ⟨x, hx, ?_⟩), ?_⟩
      · rw [isShardingColumn_of_sameName hcolumn hname, if_pos rfl, hv]
        rfl
      · rw [ColumnConstraint.isAbout, Text.sameName_refl, hname]
        rfl
    · -- the value is the key that was generated for the row
      have hlt := hkeys k hk hgenerated
      cases hk
      refine ⟨⟨t.logicTable, k.column, .oneOf [k.values[row]], []⟩, List.mem_append_right _ ?_, ?_⟩
      · rw [keyValues]
        simp only [hgenerated, isShardingColumn_of_sameName hcolumn hname, Bool.and_self, if_true,
          List.getElem?_eq_getElem hlt]
        exact List.mem_singleton.2 rfl
      · rw [ColumnConstraint.isAbout, Text.sameName_refl, hname]
        rfl
  obtain ⟨v, hv⟩ := Option.isSome_iff_exists.1 hfound
  obtain ⟨x, hx⟩ := isPointwise_ofRow r.exprs v (List.mem_of_find?_eq_some hv)
  refine ⟨x, ?_⟩
  rw [TableRule.constraint?, hv, ← hx]
  rfl

/-- The conditions of an insertion are those of its rows. -/
theorem ofInsert_eq_ok (ht : rule.table? i.table.name = some t) {conditions : List Condition}
    (h : ofInsert rule i parameters key = .ok conditions) :
    conditions = i.rows.zipIdx.map fun x => ofRow t i parameters key x.2 x.1.exprs := by
  unfold ofInsert at h
  rw [ht] at h
  simp only at h
  split at h
  · cases h
  · split at h
    · cases h
    · rw [← Except.ok.inj h, ← i.map_exprs_rows, List.mapIdx_eq_zipIdx_map, ← List.map_zipIdx,
        List.map_map]
      rfl

end Condition

/-! ### Placements -/

/-- The node of a table that a placement reaches. -/
def Placement.node? (p : Placement) (table : String) : Option DataNode :=
  (p.actual? table).map (DataNode.mk p.source.logic)

theorem Routing.placementOf_inj {table : String} {n m : DataNode}
    (h : placementOf table n = placementOf table m) : n = m := by
  cases n
  cases m
  simp only [placementOf, Renaming.same, Placement.mk.injEq, Renaming.mk.injEq, List.cons.injEq,
    and_self, and_true, true_and] at h
  rw [h.1, h.2]

theorem Routing.node?_of_extends {table : String} {n : DataNode} {more : List Renaming}
    {q : Placement} (h : (placementOf table n).Extends more q) : q.node? table = some n := by
  rw [Placement.node?, actual?_of_extends h, h.logic]
  rfl

/-- A placement reaches one of the nodes of the row with a number. -/
def Routed.sends (r : Routed) (table : String) (row : Nat) (p : Placement) : Bool :=
  (p.node? table).any fun n => ((r.routing.rowNodes[row]?).getD []).contains n

/-- **What the routing of an insertion is like.** -/
structure Routed.Spreads (r : Routed) (i : Insert) (t : TableRule) : Prop where
  statement : r.sql.statement = .insert i
  length_keys : ∀ k ∈ r.key, k.generated = true → k.values.length = i.rows.length
  /-- A row has the nodes that its values leave. -/
  rowNodes : List.Forall₂ (fun x nodes =>
    t.nodesFor (some (Condition.ofRow t i r.sql.parameters r.key x.2 x.1.exprs)) = .ok nodes)
    i.rows.zipIdx r.routing.rowNodes
  /-- The placements are those at the nodes of the rows, of which equal ones are kept once. -/
  placements : List.Forall₂ (Placement.Extends [])
    (r.routing.rowNodes.flatten.map (Routing.placementOf i.table.name)).eraseDups
    r.routing.placements

/-- **An insertion into a table that is spread is routed row by row.** -/
theorem LogicalSql.spreads_of_route {sql : LogicalSql} {i : Insert} (hvalid : t.IsValid)
    (hinsert : sql.statement = .insert i) (hrows : i.rows ≠ [])
    (ht : rule.table? i.table.name = some t) (hbroadcast : rule.isBroadcast i.table.name = false)
    {s s' : Rule.Counters} {r : Routed} (hroute : (sql.route rule).run.run s = (.ok r, s')) :
    r.sql = sql ∧ r.Spreads i t := by
  have htableNames : sql.statement.tableNames = [i.table.name] := by rw [hinsert]; rfl
  have hsharded : rule.isSharded i.table.name = true := (rule.isSharded_iff _).2 ⟨t, ht⟩
  have honRows : sql.statement.IsOnRows := by rw [hinsert]; trivial
  have hnotAll : rule.allBroadcast sql.statement.tableNames = false := by
    rw [htableNames]
    simp [Rule.allBroadcast, hbroadcast]
  have hone : rule.shardedAmong sql.statement.tableNames = [i.table.name] := by
    rw [htableNames]
    simp [Rule.shardedAmong, hsharded]
  obtain ⟨conditions, routing, s₁, hof, hkey, hrouting, hsql, hrowNodes, hplacements, -⟩ :=
    route_eq_ok honRows hnotAll hone hroute
  rw [hinsert] at hof
  have hconditions := Condition.ofInsert_eq_ok ht hof
  have hne : conditions ≠ [] := by
    rw [hconditions]
    simpa using hrows
  obtain ⟨hnodes, hplaced⟩ := Routing.ofBound_eq_ok ht hne (fun c hc => by
    rw [hconditions] at hc
    obtain ⟨x, -, rfl⟩ := List.mem_map.1 hc
    rfl) hrouting
  have hspread : List.Forall₂ (fun x nodes =>
      t.nodesFor (some (Condition.ofRow t i sql.parameters r.key x.2 x.1.exprs)) = .ok nodes)
      i.rows.zipIdx routing.rowNodes := by
    rw [hconditions] at hnodes
    exact List.forall₂_map_left_iff.1 hnodes
  -- the first row has a node, so that there is a placement
  have hplacements_ne : routing.placements ≠ [] := by
    obtain ⟨row, rest, hcons⟩ := List.exists_cons_of_ne_nil hrows
    rw [hcons, List.zipIdx_cons] at hspread
    obtain ⟨nodes, others, hfor, -, hall⟩ := List.forall₂_cons_left_iff.1 hspread
    obtain ⟨n, hn⟩ := List.exists_mem_of_ne_nil _
      (TableRule.nodesFor_ne_nil hvalid (Condition.isPointwise_ofRow row.exprs) hfor)
    have hmem : n ∈ routing.rowNodes.flatten := by
      rw [hall]
      exact List.mem_flatten.2 ⟨nodes, List.mem_cons_self .., hn⟩
    rw [hplaced]
    exact List.ne_nil_of_mem (List.mem_eraseDups.2 (List.mem_map_of_mem hmem))
  have hunsharded : Routing.unsharded rule sql.statement.tableNames = [] := by
    rw [htableNames]
    simp [Routing.unsharded, hsharded]
  have hlike := hplacements hplacements_ne
  rw [hunsharded, hplaced] at hlike
  refine ⟨hsql, by rw [hsql]; exact hinsert, GeneratedKey.length_values (hkey i hinsert), ?_, ?_⟩
  · rw [hsql, hrowNodes]
    exact hspread
  · rw [hrowNodes]
    exact hlike

/-! ### Rows and placements -/

/-- No two actual tables of a data source have the same name. -/
def TableRule.HasDistinctNames (t : TableRule) : Prop :=
  ∀ n ∈ t.nodes, ∀ m ∈ t.nodes, n.dataSource = m.dataSource →
    Text.sameName n.table m.table = true → n = m

namespace Routed.Spreads

variable {r : Routed} {i : Insert}

/-- The nodes of a row are those that its values leave. -/
theorem nodesFor_of_mem (h : r.Spreads i t) {x : ValueRow × Nat} (hx : x ∈ i.rows.zipIdx) :
    ∃ nodes, r.routing.rowNodes[x.2]? = some nodes ∧
      t.nodesFor (some (Condition.ofRow t i r.sql.parameters r.key x.2 x.1.exprs)) =
        .ok nodes := by
  obtain ⟨hlength, hget⟩ := List.forall₂_iff_get.1 h.rowNodes
  obtain ⟨j, hj, rfl⟩ := List.mem_iff_getElem.1 hx
  have hlt : j < r.routing.rowNodes.length := by omega
  have hrow := hget j hj hlt
  rw [List.get_eq_getElem, List.get_eq_getElem] at hrow
  refine ⟨r.routing.rowNodes[j], ?_, hrow⟩
  rw [List.getElem_zipIdx]
  simp only [Nat.zero_add]
  exact List.getElem?_eq_getElem hlt

/-- A row has nodes, and they are nodes of its table. -/
theorem rowNodes_spec (hvalid : t.IsValid) (h : r.Spreads i t) {nodes : List DataNode}
    (hnodes : nodes ∈ r.routing.rowNodes) : nodes ≠ [] ∧ ∀ n ∈ nodes, n ∈ t.nodes := by
  obtain ⟨x, -, hfor⟩ := Lists.exists_of_forall₂ h.rowNodes.flip hnodes
  exact ⟨TableRule.nodesFor_ne_nil hvalid (Condition.isPointwise_ofRow x.1.exprs) hfor,
    TableRule.nodesFor_subset hfor⟩

/-- A placement is at a node of the table. -/
theorem exists_of_mem_placements (hvalid : t.IsValid) (h : r.Spreads i t) {p : Placement}
    (hp : p ∈ r.routing.placements) :
    ∃ n ∈ t.nodes, (Routing.placementOf i.table.name n).Extends [] p := by
  obtain ⟨q, hq, hextends⟩ := Lists.exists_of_forall₂ h.placements.flip hp
  obtain ⟨n, hn, rfl⟩ := List.mem_map.1 (List.mem_eraseDups.1 hq)
  obtain ⟨nodes, hnodes, hn⟩ := List.mem_flatten.1 hn
  exact ⟨n, (h.rowNodes_spec hvalid hnodes).2 n hn, hextends⟩

/-- **A placement covers a node of a row exactly when it is there**, where names are distinct. -/
theorem any_covers_eq_sends (hvalid : t.IsValid) (hnames : t.HasDistinctNames)
    (h : r.Spreads i t) {p : Placement} (hp : p ∈ r.routing.placements) {x : ValueRow × Nat}
    (hx : x ∈ i.rows.zipIdx) :
    ((r.routing.rowNodes[x.2]?).getD []).any p.covers = r.sends i.table.name x.2 p := by
  obtain ⟨nodes, hnodes, -⟩ := h.nodesFor_of_mem hx
  obtain ⟨-, hsubset⟩ := h.rowNodes_spec hvalid (List.mem_of_getElem? hnodes)
  obtain ⟨n, hn, hextends⟩ := h.exists_of_mem_placements hvalid hp
  -- a node is covered when its names match, and then it is the node of the placement
  have hcovers : ∀ m ∈ nodes, p.covers m = true ↔ m = n := by
    intro m hm
    rw [Placement.covers, hextends.logic, hextends.tables, Routing.placementOf, List.append_nil,
      List.any_cons, List.any_nil, Bool.or_false, Bool.and_eq_true, decide_eq_true_eq]
    constructor
    · rintro ⟨hsource, htable⟩
      exact (hnames n hn m (hsubset m hm) hsource htable).symm
    · rintro rfl
      exact ⟨rfl, Text.sameName_refl _⟩
  rw [Routed.sends, Routing.node?_of_extends hextends, hnodes, Option.getD_some, Option.any_some,
    Bool.eq_iff_iff, List.any_eq_true, List.contains_iff_mem]
  constructor
  · rintro ⟨m, hm, hcov⟩
    rwa [← (hcovers m hm).1 hcov]
  · exact fun hmem => ⟨n, hmem, (hcovers n hmem).2 rfl⟩

/-- **A row that has values for the columns of both axes goes to a single placement.** -/
theorem countP_eq_one {db tb : String} {dbAlgorithm tbAlgorithm : Algorithm}
    (hdb : t.database = .standard db dbAlgorithm) (htb : t.table = .standard tb tbAlgorithm)
    (h : r.Spreads i t) {x : ValueRow × Nat} (hx : x ∈ i.rows.zipIdx)
    (hvalues : ∀ column ∈ t.shardingColumns, i.HasValue r.sql.parameters r.key x.1 column) :
    r.routing.placements.countP (r.sends i.table.name x.2) = 1 := by
  obtain ⟨nodes, hnodes, hfor⟩ := h.nodesFor_of_mem hx
  have hkeys : ∀ k ∈ r.key, k.generated = true → x.2 < k.values.length := by
    intro k hk hgenerated
    rw [h.length_keys k hk hgenerated]
    exact (List.getElem?_eq_some_iff.1 (List.mem_zipIdx_iff_getElem?.1 hx)).1
  have hdbColumn : db ∈ t.shardingColumns := by
    simp [TableRule.shardingColumns, hdb, Strategy.column?]
  have htbColumn : tb ∈ t.shardingColumns := by
    simp [TableRule.shardingColumns, htb, Strategy.column?]
  obtain ⟨v, hv⟩ := Condition.constraint?_ofRow hdbColumn hkeys (hvalues db hdbColumn)
  obtain ⟨w, hw⟩ := Condition.constraint?_ofRow htbColumn hkeys (hvalues tb htbColumn)
  obtain ⟨n, hn, honly⟩ := TableRule.exists_of_nodesFor_single hdb htb hv hw hfor
  -- a placement is sent the row when it comes from the placement at its node
  have hsends : ∀ q p, (∃ m, q = Routing.placementOf i.table.name m) ∧
      Placement.Extends [] q p →
        (q == Routing.placementOf i.table.name n) = r.sends i.table.name x.2 p := by
    rintro q p ⟨⟨m, rfl⟩, hextends⟩
    rw [Routed.sends, Routing.node?_of_extends hextends, hnodes, Option.getD_some,
      Option.any_some, Bool.eq_iff_iff, beq_iff_eq, List.contains_iff_mem]
    constructor
    · intro heq
      rwa [Routing.placementOf_inj heq]
    · intro hm
      rw [honly m hm]
  have hforms : ∀ q ∈ (r.routing.rowNodes.flatten.map
      (Routing.placementOf i.table.name)).eraseDups,
        ∃ m, q = Routing.placementOf i.table.name m := by
    intro q hq
    obtain ⟨m, -, rfl⟩ := List.mem_map.1 (List.mem_eraseDups.1 hq)
    exact ⟨m, rfl⟩
  rw [← Lists.countP_eq_of_forall₂ ((List.forall₂_and_left _ _).2 ⟨hforms, h.placements⟩) hsends]
  refine List.count_eq_one_of_mem (Lists.nodup_eraseDups _) (List.mem_eraseDups.2 ?_)
  exact List.mem_map_of_mem (List.mem_flatten.2 ⟨nodes, List.mem_of_getElem? hnodes, hn⟩)

end Routed.Spreads

end ShardedSql
