/-
**Statements on a single table that is spread.**

Where only one table of a statement has a rule, no other table narrows its nodes: the statement has
a placement at each node that its conditions leave, in which the table is replaced by its actual
one.  The other tables of the statement and the replicas change neither the node nor the actual
table of a placement.

Main definitions:

* `ShardedSql.Routing.placementOf` — the placement of a table at one of its nodes;
* `ShardedSql.Placement.Extends` — a placement in the same data source with the same tables, and
  maybe more of them.

Main results:

* `ShardedSql.Routing.underCondition_eq_ok` — **a placement at each node that a condition leaves**;
* `ShardedSql.Routing.shardedAmong_tableNames` — a table that is named once is sharded once;
* `ShardedSql.Routing.withReplicas_spec` — **replicas change physical data sources only**;
* `ShardedSql.LogicalSql.route_steps` — **the steps of a routing that succeeded**;
* `ShardedSql.LogicalSql.route_eq_ok` — what they are for a single table.
-/

import ShardedSql.Proofs.Algorithm
import ShardedSql.Proofs.Rule.Tables
import ShardedSql.Proofs.Stateful
import ShardedSql.Routing.Statement

set_option relaxedAutoImplicit false
set_option autoImplicit false

namespace ShardedSql

/-! ### The nodes of a table -/

namespace TableRule

variable {t : TableRule} {condition : Option Condition} {nodes : List DataNode}

/-- The data sources that a condition leaves. -/
def sourcesFor (t : TableRule) (condition : Option Condition) : Outcome (List String) :=
  t.database.targets t.dataSources t.logicTable (t.constraint? condition t.database.column?)

/-- The actual tables of a data source that a condition leaves. -/
def tablesFor (t : TableRule) (condition : Option Condition) (source : String) :
    Outcome (List String) :=
  t.table.targets (t.tablesIn source) t.logicTable (t.constraint? condition t.table.column?)

/-- **The nodes that a condition leaves** are in the data sources that it leaves, and in each of
these they are the actual tables that it leaves. -/
theorem nodesFor_spec (h : t.nodesFor condition = .ok nodes) :
    ∃ sources, t.sourcesFor condition = .ok sources ∧
      (∀ n ∈ nodes, n.dataSource ∈ sources) ∧
      ∀ source ∈ sources, ∃ tables, t.tablesFor condition source = .ok tables ∧
        ∀ n : DataNode, n.dataSource = source → (n ∈ nodes ↔ n.table ∈ tables) := by
  obtain ⟨sources, hsources, h⟩ := Outcome.bind_eq_ok.1 h
  obtain ⟨parts, hparts, h⟩ := Outcome.bind_eq_ok.1 h
  cases h
  refine ⟨sources, hsources, fun n hn => ?_, fun source hsource => ?_⟩
  · obtain ⟨part, hpart, hn⟩ := List.mem_flatten.1 hn
    obtain ⟨source, hsource, hpart⟩ := Outcome.exists_of_mem_right hparts hpart
    obtain ⟨tables, -, hpart⟩ := Outcome.bind_eq_ok.1 hpart
    cases hpart
    obtain ⟨table, -, rfl⟩ := List.mem_map.1 hn
    exact hsource
  · obtain ⟨part, hpart, h⟩ := Outcome.exists_of_mem_left hparts hsource
    obtain ⟨tables, htables, h⟩ := Outcome.bind_eq_ok.1 h
    cases h
    refine ⟨tables, htables, fun n hn => ⟨fun hmem => ?_, fun hmem => ?_⟩⟩
    · -- the part that the node is in belongs to the same data source
      obtain ⟨part, hpart, hmem⟩ := List.mem_flatten.1 hmem
      obtain ⟨other, -, hpart⟩ := Outcome.exists_of_mem_right hparts hpart
      obtain ⟨others, hothers, hpart⟩ := Outcome.bind_eq_ok.1 hpart
      cases hpart
      obtain ⟨table, htable, rfl⟩ := List.mem_map.1 hmem
      cases hn
      cases htables.symm.trans hothers
      exact htable
    · cases hn
      exact List.mem_flatten.2 ⟨_, hpart, List.mem_map.2 ⟨n.table, hmem, rfl⟩⟩

/-- A condition leaves nodes of the table only. -/
theorem nodesFor_subset (h : t.nodesFor condition = .ok nodes) : ∀ n ∈ nodes, n ∈ t.nodes := by
  intro n hn
  obtain ⟨sources, -, hsource, hspec⟩ := nodesFor_spec h
  obtain ⟨tables, htables, hmem⟩ := hspec n.dataSource (hsource n hn)
  exact (t.mem_tablesIn ..).1 (Strategy.targets_subset htables n.table ((hmem n rfl).1 hn))

end TableRule

namespace Routing

variable {rule : Rule} {name : String} {t : TableRule}

/-! ### One table -/

/-- The placement of a table at one of its nodes. -/
def placementOf (table : String) (n : DataNode) : Placement :=
  ⟨Renaming.same n.dataSource, [⟨table, n.table⟩]⟩

theorem leader_singleton (condition : Option Condition) : leader name [name] condition = name := by
  cases condition with
  | none => rfl
  | some c =>
      rw [leader, List.find?_cons]
      cases c.mentions name <;> rfl

/-- A single table leads, and no other one narrows its nodes. -/
theorem sharedNodes_eq_ok (ht : rule.table? name = some t) {condition : Option Condition}
    {p : String × List DataNode} :
    sharedNodes rule [name] condition = .ok p ↔
      ∃ nodes, t.nodesFor condition = .ok nodes ∧ p = (name, nodes) := by
  rw [sharedNodes, leader_singleton, Rule.table_eq_ok.2 ht]
  change (t.nodesFor condition >>= _) = _ ↔ _
  rw [Outcome.bind_eq_ok]
  refine exists_congr fun nodes => and_congr_right fun _ => ?_
  cases condition with
  | none => exact ⟨fun h => (Except.ok.inj h).symm, fun h => by rw [h]; rfl⟩
  | some c =>
      have hothers : ([name].filter fun t => t ≠ name && c.mentions t) = [] := by simp
      simp only [hothers]
      exact ⟨fun h => (Except.ok.inj h).symm, fun h => by rw [h]; rfl⟩

theorem placementAt_singleton (n : DataNode) :
    placementAt rule [name] name n = .ok (placementOf name n) := by
  rw [placementAt, List.mapM_cons, List.mapM_nil, if_pos rfl]
  rfl

theorem mapM_placementAt (nodes : List DataNode) :
    nodes.mapM (placementAt rule [name] name) = .ok (nodes.map (placementOf name)) := by
  rw [Outcome.mapM_eq_ok, List.forall₂_map_right_iff, List.forall₂_same]
  exact fun n _ => placementAt_singleton n

/-- **The placements under a condition are those at the nodes that the condition leaves.** -/
theorem underCondition_eq_ok (ht : rule.table? name = some t) {condition : Option Condition}
    {p : List DataNode × List Placement} :
    underCondition rule [name] condition = .ok p ↔
      ∃ nodes, t.nodesFor condition = .ok nodes ∧ p = (nodes, nodes.map (placementOf name)) := by
  rw [underCondition, Outcome.bind_eq_ok]
  constructor
  · rintro ⟨q, hq, h⟩
    obtain ⟨nodes, hnodes, rfl⟩ := (sharedNodes_eq_ok ht).1 hq
    simp only [mapM_placementAt] at h
    exact ⟨nodes, hnodes, (Except.ok.inj h).symm⟩
  · rintro ⟨nodes, hnodes, rfl⟩
    refine ⟨(name, nodes), (sharedNodes_eq_ok ht).2 ⟨nodes, hnodes, rfl⟩, ?_⟩
    simp only [mapM_placementAt]
    rfl

/-! ### Conditions -/

/-- Without conditions there is a placement at every node. -/
theorem ofBound_nil_eq_ok (ht : rule.table? name = some t) {r : Routing}
    (h : ofBound rule [name] [] = .ok r) :
    ∃ nodes, t.nodesFor none = .ok nodes ∧ r = ofPlacements (nodes.map (placementOf name)) := by
  obtain ⟨p, hp, h⟩ := Outcome.bind_eq_ok.1 h
  obtain ⟨nodes, hnodes, rfl⟩ := (underCondition_eq_ok ht).1 hp
  exact ⟨nodes, hnodes, (Except.ok.inj h).symm⟩

/-- The nodes that each of some conditions leaves, with the placements at them. -/
theorem mapM_ofRow_eq_ok (ht : rule.table? name = some t) {conditions : List Condition}
    (hmeetable : ∀ c ∈ conditions, c.alwaysFalse = false)
    {rows : List (List DataNode × List Placement)}
    (h : conditions.mapM (ofRow rule [name]) = .ok rows) :
    ∃ rowNodes, List.Forall₂ (fun c nodes => t.nodesFor (some c) = .ok nodes) conditions rowNodes ∧
      rows = rowNodes.map fun nodes => (nodes, nodes.map (placementOf name)) := by
  induction Outcome.mapM_eq_ok.1 h with
  | nil => exact ⟨[], .nil, rfl⟩
  | @cons c p conditions rows hp hrest ih =>
      obtain ⟨hc, hmeetable⟩ := List.forall_mem_cons.1 hmeetable
      obtain ⟨rowNodes, hnodes, rfl⟩ := ih hmeetable (Outcome.mapM_eq_ok.2 hrest)
      rw [ofRow, hc, if_neg Bool.false_ne_true] at hp
      obtain ⟨nodes, hfor, rfl⟩ := (underCondition_eq_ok ht).1 hp
      exact ⟨nodes :: rowNodes, .cons hfor hnodes, rfl⟩

/-- **Under conditions that rows can meet there is a placement at the nodes of each row.** -/
theorem ofBound_eq_ok (ht : rule.table? name = some t) {conditions : List Condition}
    (hne : conditions ≠ []) (hmeetable : ∀ c ∈ conditions, c.alwaysFalse = false) {r : Routing}
    (h : ofBound rule [name] conditions = .ok r) :
    List.Forall₂ (fun c nodes => t.nodesFor (some c) = .ok nodes) conditions r.rowNodes ∧
      r.placements = (r.rowNodes.flatten.map (placementOf name)).eraseDups := by
  cases conditions with
  | nil => exact absurd rfl hne
  | cons c rest =>
      have hfalse : Condition.allFalse (c :: rest) = false := by
        rw [Condition.allFalse, List.all_cons, hmeetable c (List.mem_cons_self ..)]
        rfl
      unfold ofBound at h
      rw [hfalse, if_neg Bool.false_ne_true] at h
      obtain ⟨rows, hrows, h⟩ := Outcome.bind_eq_ok.1 h
      cases h
      obtain ⟨rowNodes, hnodes, rfl⟩ := mapM_ofRow_eq_ok ht hmeetable hrows
      have hfst : (rowNodes.map fun nodes => (nodes, nodes.map (placementOf name))).map (·.1) =
          rowNodes := by
        rw [List.map_map]
        exact List.map_id _
      have hsnd : (rowNodes.map fun nodes => (nodes, nodes.map (placementOf name))).flatMap (·.2) =
          rowNodes.flatten.map (placementOf name) := by
        rw [List.flatMap_map, List.map_flatten]
        rfl
      simp only [hfst, hsnd]
      exact ⟨hnodes, rfl⟩

/-! ### The tables of a statement -/

/-- The names that are added to others are not sharded when no table is. -/
theorem filter_foldl_addName {refs : List TableRef} (names : List String)
    (hrefs : ∀ r ∈ refs, rule.isSharded r.name = false) :
    rule.shardedAmong (refs.foldl Statement.addName names) = rule.shardedAmong names := by
  induction refs generalizing names with
  | nil => rfl
  | cons r rest ih =>
      obtain ⟨hr, hrest⟩ := List.forall_mem_cons.1 hrefs
      rw [List.foldl_cons, ih _ hrest, Statement.addName]
      split
      · rfl
      · rw [Rule.shardedAmong, List.filter_append, List.filter_singleton, hr]
        exact List.append_nil _

/-- **A table that is named once is sharded once.** -/
theorem shardedAmong_tableNames {s : Statement} {before after : List TableRef} {r : TableRef}
    (htables : s.tables = before ++ r :: after) (hr : rule.isSharded r.name = true)
    (hbefore : ∀ x ∈ before, rule.isSharded x.name = false)
    (hafter : ∀ x ∈ after, rule.isSharded x.name = false) :
    rule.shardedAmong s.tableNames = [r.name] := by
  rw [Statement.tableNames, htables, List.foldl_append, List.foldl_cons,
    filter_foldl_addName _ hafter]
  have hnone : rule.shardedAmong (before.foldl Statement.addName []) = [] :=
    filter_foldl_addName [] hbefore
  -- a name before that is the same would be sharded too
  have hfresh : ((before.foldl Statement.addName []).any fun n => Text.sameName n r.name) =
      false := by
    rw [List.any_eq_false]
    intro n hn hsame
    have hsharded : rule.isSharded n = true := by rw [Rule.isSharded_congr hsame, hr]
    have hmem : n ∈ rule.shardedAmong (before.foldl Statement.addName []) :=
      List.mem_filter.2 ⟨hn, hsharded⟩
    rw [hnone] at hmem
    cases hmem
  rw [Statement.addName, hfresh, if_neg Bool.false_ne_true, Rule.shardedAmong,
    List.filter_append, List.filter_singleton, hr, ← Rule.shardedAmong, hnone]
  rfl

/-- The tables without a rule, which keep their names. -/
def unsharded (rule : Rule) (tables : List String) : List Renaming :=
  (tables.filter fun t => !rule.isSharded t).map Renaming.same

theorem addUnsharded_single {tables : List String} (h : rule.shardedAmong tables = [name])
    (r : Routing) : addUnsharded rule tables r =
      { r with placements := r.placements.map fun p => p.withTables (unsharded rule tables) } := by
  rw [addUnsharded, h]
  rfl

/-- A single sharded table is routed by the conditions of a statement on rows. -/
theorem ofRows_single {tables : List String} (hbroadcast : rule.allBroadcast tables = false)
    (h : rule.shardedAmong tables = [name]) (readOnly : Bool) (conditions : List Condition) :
    ofRows rule readOnly tables conditions = ofBound rule [name] conditions := by
  rw [ofRows, hbroadcast, h]
  rfl

end Routing

/-! ### Replicas -/

/-- A placement is in the logical data source of another one, with its tables and some more. -/
structure Placement.Extends (more : List Renaming) (p q : Placement) : Prop where
  logic : q.source.logic = p.source.logic
  tables : q.tables = p.tables ++ more

namespace Routing

variable {rule : Rule} {readOnly : Bool} {s s' : Rule.Counters}

/-- What a placement at a node is extended to still finds the actual table there. -/
theorem actual?_of_extends {table : String} {n : DataNode} {more : List Renaming} {q : Placement}
    (h : (placementOf table n).Extends more q) : q.actual? table = some n.table := by
  have hfound : Text.sameName (Renaming.mk table n.table).logic table = true :=
    Text.sameName_refl table
  rw [Placement.actual?, h.tables, placementOf, List.singleton_append]
  simp only [List.find?_cons, hfound]
  rfl

theorem extends_of_replicate {p q : Placement}
    (h : (replicate rule readOnly p).run s = (q, s')) : p.Extends [] q := by
  unfold replicate at h
  split at h
  · cases h
    exact ⟨rfl, (List.append_nil _).symm⟩
  · cases h
    exact ⟨rfl, (List.append_nil _).symm⟩

theorem extends_of_mapM_replicate {ps qs : List Placement}
    (h : (ps.mapM (replicate rule readOnly)).run s = (qs, s')) :
    List.Forall₂ (Placement.Extends []) ps qs := by
  induction ps generalizing qs s with
  | nil =>
      cases h
      exact .nil
  | cons p rest ih =>
      rw [List.mapM_cons] at h
      cases h
      exact .cons (extends_of_replicate rfl) (ih rfl)

/-- Where there are no placements, replicas add at most one, which is without tables. -/
theorem withReplicas_of_nowhere {r r' : Routing} (hr : r.placements = [])
    (h : (withReplicas rule readOnly r).run s = (r', s')) :
    r'.placements = [] ∨
      ∃ g p, rule.replicas = [g] ∧ r'.placements = [p] ∧ p.tables = [] ∧
        p.source.logic = g.name := by
  unfold withReplicas at h
  rw [hr] at h
  simp only at h
  split at h
  · rename_i g hg
    cases h
    exact .inr ⟨g, _, hg, rfl, rfl, rfl⟩
  · cases h
    exact .inl hr

/-- **Replicas change physical data sources only**, where there are placements at all. -/
theorem withReplicas_spec {r r' : Routing}
    (h : (withReplicas rule readOnly r).run s = (r', s')) :
    r'.rowNodes = r.rowNodes ∧
      (r.placements ≠ [] → List.Forall₂ (Placement.Extends []) r.placements r'.placements) := by
  unfold withReplicas at h
  split at h
  · rename_i hnil
    refine ⟨?_, fun hne => absurd hnil hne⟩
    split at h <;> cases h <;> rfl
  · cases h
    exact ⟨rfl, fun _ => extends_of_mapM_replicate rfl⟩

/-- What becomes of a routing of a single table: its placements are given the other tables and
replicas, and where it has none, none with an actual table is added. -/
theorem extends_of_replicated {name : String} {tables : List String}
    (hsharded : rule.shardedAmong tables = [name]) {routing r' : Routing}
    (h : (withReplicas rule readOnly (addUnsharded rule tables routing)).run s = (r', s')) :
    r'.rowNodes = routing.rowNodes ∧
      (routing.placements ≠ [] →
        List.Forall₂ (Placement.Extends (unsharded rule tables)) routing.placements
          r'.placements) ∧
      (routing.placements = [] → ∀ p ∈ r'.placements, p.tables = []) := by
  obtain ⟨hrowNodes, hplacements⟩ := withReplicas_spec h
  rw [addUnsharded_single hsharded] at h hrowNodes hplacements
  refine ⟨hrowNodes, fun hne => ?_, fun hnone p hp => ?_⟩
  · have hlike := hplacements (by simpa using hne)
    rw [List.forall₂_map_left_iff] at hlike
    refine hlike.imp fun p q hpq => ⟨hpq.logic, ?_⟩
    rw [hpq.tables, List.append_nil]
    rfl
  · have hnowhere : (routing.placements.map fun p => p.withTables (unsharded rule tables)) = [] := by
      rw [hnone, List.map_nil]
    rcases withReplicas_of_nowhere hnowhere h with hnone' | ⟨g, q, -, hq, htables, -⟩
    · rw [hnone'] at hp
      cases hp
    · rw [hq] at hp
      rw [List.mem_singleton.1 hp]
      exact htables

end Routing

/-! ### Routings -/

/-- The statement changes rows or looks for them. -/
def Statement.IsOnRows : Statement → Prop
  | .ddl _ => False
  | .dcl _ => False
  | _ => True

/-- The key comes first, and the conditions are those of the statement with that key. -/
theorem LogicalSql.conditions_eq_ok {sql : LogicalSql} {rule : Rule} {key : Option GeneratedKey}
    {conditions : List Condition} {s s' : Rule.Counters}
    (h : (sql.conditions rule).run.run s = (.ok (key, conditions), s')) :
    Condition.ofStatement rule sql.statement sql.parameters key = .ok conditions ∧
      ∀ i, sql.statement = .insert i →
        (GeneratedKey.ofInsert rule i sql.parameters).run.run s = (.ok key, s') := by
  -- what is left to do once there is a key
  have hrest {key' : Option GeneratedKey} {s₁ : Rule.Counters}
      (h : (liftM (m := Except Fault)
        (Condition.ofStatement rule sql.statement sql.parameters key') >>= fun found =>
          (pure (key', found) : Rule.Counting _)).run.run s₁ = (.ok (key, conditions), s')) :
      Condition.ofStatement rule sql.statement sql.parameters key = .ok conditions ∧ key' = key ∧
        s₁ = s' := by
    obtain ⟨found, s₂, hfound, h⟩ := Stateful.bind_eq_ok.1 h
    obtain ⟨hpair, rfl⟩ := Stateful.pure_eq_ok.1 h
    obtain ⟨hof, rfl⟩ := Stateful.liftOutcome_eq_ok.1 hfound
    cases hpair
    exact ⟨hof, rfl, rfl⟩
  unfold LogicalSql.conditions at h
  cases hs : sql.statement with
  | insert i =>
      simp only [hs] at h hrest
      obtain ⟨key', s₁, hkey, h⟩ := Stateful.bind_eq_ok.1 h
      obtain ⟨hof, rfl, rfl⟩ := hrest h
      refine ⟨hof, fun j hj => ?_⟩
      cases hj
      exact hkey
  | _ =>
      simp only [hs] at h hrest
      obtain ⟨hof, -, -⟩ := hrest h
      exact ⟨hof, fun j hj => by cases hj⟩

/-- **The steps of a routing that succeeded.** -/
theorem LogicalSql.route_steps {sql : LogicalSql} {rule : Rule} {s s' : Rule.Counters}
    {r : Routed} (h : (sql.route rule).run.run s = (.ok r, s')) :
    ∃ conditions routing s₁, (sql.conditions rule).run.run s = (.ok (r.key, conditions), s₁) ∧
      Routing.ofTables rule sql.statement conditions = .ok routing ∧
      (Routing.withReplicas rule sql.statement.isReadOnly routing).run s₁ = (r.routing, s') ∧
      r.sql = sql := by
  obtain ⟨⟨key, conditions⟩, s₁, hconditions, h⟩ := Stateful.bind_eq_ok.1 h
  obtain ⟨routing, s₂, hrouting, h⟩ := Stateful.bind_eq_ok.1 h
  obtain ⟨replicated, s₃, hreplicated, h⟩ := Stateful.bind_eq_ok.1 h
  obtain ⟨rfl, rfl⟩ := Stateful.pure_eq_ok.1 h
  obtain ⟨hofTables, rfl⟩ := Stateful.liftOutcome_eq_ok.1 hrouting
  exact ⟨conditions, routing, s₁, hconditions, hofTables, Stateful.liftState_eq_ok.1 hreplicated,
    rfl⟩

/-- A statement on rows is not routed as one on whole tables. -/
theorem Routing.core_of_isOnRows {rule : Rule} {s : Statement} (h : s.IsOnRows)
    (conditions : List Condition) :
    core rule s conditions = ofRows rule s.isReadOnly s.tableNames conditions := by
  cases s with
  | ddl tables => exact h.elim
  | dcl tables => exact h.elim
  | _ => rfl

/-- **What a routing that succeeded has gone through.** -/
theorem LogicalSql.route_eq_ok {sql : LogicalSql} {rule : Rule} {s s' : Rule.Counters}
    {r : Routed} (hrows : sql.statement.IsOnRows) {name : String}
    (hbroadcast : rule.allBroadcast sql.statement.tableNames = false)
    (hsharded : rule.shardedAmong sql.statement.tableNames = [name])
    (h : (sql.route rule).run.run s = (.ok r, s')) :
    ∃ conditions routing s₁,
      Condition.ofStatement rule sql.statement sql.parameters r.key = .ok conditions ∧
      (∀ i, sql.statement = .insert i →
        (GeneratedKey.ofInsert rule i sql.parameters).run.run s = (.ok r.key, s₁)) ∧
      Routing.ofBound rule [name] conditions = .ok routing ∧
      r.sql = sql ∧ r.routing.rowNodes = routing.rowNodes ∧
      (routing.placements ≠ [] →
        List.Forall₂ (Placement.Extends (Routing.unsharded rule sql.statement.tableNames))
          routing.placements r.routing.placements) ∧
      (routing.placements = [] → ∀ p ∈ r.routing.placements, p.tables = []) := by
  obtain ⟨conditions, tables, s₁, hconditions, hofTables, hreplicated, hsql⟩ := route_steps h
  obtain ⟨routing, hrouting, rfl⟩ := Outcome.map_eq_ok.1 hofTables
  rw [Routing.core_of_isOnRows hrows, Routing.ofRows_single hbroadcast hsharded] at hrouting
  obtain ⟨hof, hkey⟩ := LogicalSql.conditions_eq_ok hconditions
  exact ⟨conditions, routing, s₁, hof, hkey, hrouting, hsql,
    Routing.extends_of_replicated hsharded hreplicated⟩

end ShardedSql
