/-
**A sharded table is never left with its logical name.**

The text of a statement is rewritten with what its placement finds for each table.  So every
placement has to map every sharded table that the statement names to one of its actual tables in
the data source of the placement.  Placements are made at nodes, joined group by group, given the
tables that are not sharded, and moved to replicas; each of these steps keeps what has been mapped
right and adds no wrong name.

Main definitions:

* `ShardedSql.Placement.NamesNodes` — **a placement maps tables to their own nodes**;
* `ShardedSql.Placement.Renames` — a placement finds a node of a table;
* `ShardedSql.Routing.IsMadeAtNode` — a placement is made at a node of a table that leads.

Main results:

* `ShardedSql.Routing.isMadeAtNode_of_ofBound`, `ShardedSql.Routing.exists_way_of_ofJoined` — how
  the placements of tables that are spread alike, and of tables in several groups, are made;
* `ShardedSql.Routing.namesNodes_of_ofBound`, `ShardedSql.Routing.namesNodes_of_ofJoined` — tables
  that are routed by conditions are mapped to their nodes;
* `ShardedSql.Routing.namesNodes_of_ofTables` — and so are those of every kind of statement;
* `ShardedSql.LogicalSql.route_renames` — **every sharded table that a statement names is found at
  a node of its own**.
-/

import ShardedSql.Proofs.Routing.Bound
import ShardedSql.Proofs.Routing.Joined
import ShardedSql.Proofs.Routing.Unsharded

set_option relaxedAutoImplicit false
set_option autoImplicit false

namespace ShardedSql

variable {rule : Rule} {t : TableRule}

/-! ### Placements -/

/-- A placement maps some tables, and every sharded one that it maps stands for one of its actual
tables in the logical data source of the placement. -/
structure Placement.NamesNodes (rule : Rule) (names : List String) (p : Placement) : Prop where
  node : ∀ r ∈ p.tables, ∀ o, rule.table? r.logic = some o → ⟨p.source.logic, r.actual⟩ ∈ o.nodes
  named : ∀ name ∈ names, ∃ r ∈ p.tables, Text.sameName r.logic name = true

/-- What a placement finds for a table is one of its actual tables in the logical data source of the
placement. -/
def Placement.Renames (p : Placement) (t : TableRule) (name : String) : Prop :=
  ∃ a ∈ p.actual? name, ⟨p.source.logic, a⟩ ∈ t.nodes

instance (p : Placement) (t : TableRule) (name : String) : Decidable (p.Renames t name) :=
  inferInstanceAs (Decidable (∃ a ∈ p.actual? name, ⟨p.source.logic, a⟩ ∈ t.nodes))

namespace Placement.NamesNodes

variable {p q : Placement} {names : List String}

/-- A table that is mapped, in whatever spelling, is found at one of its nodes. -/
theorem renames (h : p.NamesNodes rule names) {name other : String} (hother : other ∈ names)
    (hsame : Text.sameName other name = true) (ht : rule.table? name = some t) :
    p.Renames t name := by
  obtain ⟨r, hr, hrother⟩ := h.named other hother
  obtain ⟨r, hr, hrname, hactual⟩ :=
    Placement.actual?_of_mem ⟨r, hr, Text.sameName_trans hrother hsame⟩
  exact ⟨r.actual, hactual, h.node r hr t (Rule.table?_congr hrname ▸ ht)⟩

/-- A placement that is given the tables of another one in its data source maps those of both. -/
theorem withTables (hp : p.NamesNodes rule names) {more : List Renaming} {others : List String}
    (hq : (Placement.mk p.source more).NamesNodes rule others) :
    (p.withTables more).NamesNodes rule (names ++ others) := by
  constructor
  · intro r hr o ho
    rcases List.mem_append.1 hr with hr | hr
    · exact hp.node r hr o ho
    · exact hq.node r hr o ho
  · intro name hname
    rcases List.mem_append.1 hname with hname | hname
    · obtain ⟨r, hr, hsame⟩ := hp.named name hname
      exact ⟨r, List.mem_append_left _ hr, hsame⟩
    · obtain ⟨r, hr, hsame⟩ := hq.named name hname
      exact ⟨r, List.mem_append_right _ hr, hsame⟩

/-- Only the logical data source counts. -/
theorem congr (hp : p.NamesNodes rule names) (hsource : q.source.logic = p.source.logic)
    (htables : q.tables = p.tables) : q.NamesNodes rule names := by
  constructor
  · intro r hr o ho
    rw [hsource]
    exact hp.node r (htables ▸ hr) o ho
  · rw [htables]
    exact hp.named

/-- Tables that are not sharded may keep their names anywhere. -/
theorem of_unsharded {source : Renaming} {tables : List String}
    (h : ∀ name ∈ tables, rule.isSharded name = false) :
    (Placement.mk source (tables.map Renaming.same)).NamesNodes rule [] := by
  constructor
  · intro r hr o ho
    obtain ⟨name, hname, rfl⟩ := List.mem_map.1 hr
    have hsharded := h name hname
    rw [(rule.isSharded_iff name).2 ⟨o, ho⟩] at hsharded
    cases hsharded
  · intro name hname
    cases hname

end Placement.NamesNodes

/-! ### Bound tables -/

/-- A table that is mapped by position is mapped to one of its nodes. -/
theorem Rule.mem_nodes_of_bindingActualTable {source logic other actual a : String}
    (ht : rule.table? logic = some t)
    (h : rule.bindingActualTable source logic other actual = .ok a) : ⟨source, a⟩ ∈ t.nodes := by
  obtain ⟨o, -, h⟩ := Outcome.bind_eq_ok.1 h
  split at h
  · cases h
  · obtain ⟨t', ht', h⟩ := Outcome.bind_eq_ok.1 h
    rw [Rule.table_eq_ok, ht] at ht'
    cases ht'
    split at h
    · rename_i hb
      cases h
      exact (t.mem_tablesIn source a).1 (List.mem_of_getElem? hb)
    · cases h

namespace Routing

variable {tables : List String} {lead : String} {condition : Option Condition}

/-- A placement at a node of the leading table maps all tables to their nodes. -/
theorem namesNodes_of_placementAt {n : DataNode} {p : Placement}
    (ht : rule.table? lead = some t) (hn : n ∈ t.nodes)
    (h : placementAt rule tables lead n = .ok p) : p.NamesNodes rule tables := by
  obtain ⟨hsource, hrenamings⟩ := placementAt_eq_ok.1 h
  constructor
  · intro r hr o ho
    obtain ⟨table, -, rfl, hactual⟩ := Lists.exists_of_forall₂_right hrenamings hr
    rw [hsource]
    rw [actualAt] at hactual
    split at hactual
    · rename_i heq
      rw [heq, ht] at ho
      cases ho
      rw [← Except.ok.inj hactual]
      exact hn
    · exact Rule.mem_nodes_of_bindingActualTable ho hactual
  · intro name hname
    obtain ⟨r, hr, hlogic, -⟩ := Lists.exists_of_forall₂ hrenamings hname
    exact ⟨r, hr, hlogic ▸ Text.sameName_refl _⟩

/-- Narrowing leaves some of the nodes. -/
theorem narrow_subset {c : Condition} {nodes kept : List DataNode} {other : String}
    (h : narrow rule c t lead nodes other = .ok kept) : ∀ n ∈ kept, n ∈ nodes := by
  intro n hn
  obtain ⟨o, -, h⟩ := Outcome.bind_eq_ok.1 h
  obtain ⟨others, -, h⟩ := Outcome.bind_eq_ok.1 h
  split at h
  · cases h
    exact hn
  · simp only at h
    split at h
    · cases h
    · cases h
      exact List.mem_of_mem_filter hn

/-- The nodes that are shared are nodes of the leading table. -/
theorem sharedNodes_subset {nodes : List DataNode}
    (h : sharedNodes rule tables condition = .ok (lead, nodes)) :
    ∃ t, rule.table? lead = some t ∧ ∀ n ∈ nodes, n ∈ t.nodes := by
  unfold sharedNodes at h
  split at h
  · cases h
  · obtain ⟨t, ht, h⟩ := Outcome.bind_eq_ok.1 h
    obtain ⟨left, hleft, h⟩ := Outcome.bind_eq_ok.1 h
    have hnodes := TableRule.nodesFor_subset hleft
    cases condition with
    | none =>
        cases h
        exact ⟨t, Rule.table_eq_ok.1 ht, hnodes⟩
    | some c =>
        obtain ⟨kept, hkept, h⟩ := Outcome.bind_eq_ok.1 h
        cases h
        refine ⟨t, Rule.table_eq_ok.1 ht, ?_⟩
        refine Outcome.foldlM_induction (P := fun nodes => ∀ n ∈ nodes, n ∈ t.nodes) ?_ hnodes hkept
        intro nodes nodes' hall other _ hnarrow n hn
        exact hall n (narrow_subset hnarrow n hn)

/-- A placement is made at a node of a table that leads. -/
def IsMadeAtNode (rule : Rule) (tables : List String) (p : Placement) : Prop :=
  ∃ lead t n, rule.table? lead = some t ∧ n ∈ t.nodes ∧ placementAt rule tables lead n = .ok p

theorem isMadeAtNode_of_underCondition {nodes : List DataNode} {ps : List Placement}
    (h : underCondition rule tables condition = .ok (nodes, ps)) :
    ∀ p ∈ ps, IsMadeAtNode rule tables p := by
  intro p hp
  obtain ⟨⟨lead, shared⟩, hshared, h⟩ := Outcome.bind_eq_ok.1 h
  obtain ⟨placed, hplaced, h⟩ := Outcome.bind_eq_ok.1 h
  cases h
  obtain ⟨t, ht, hnodes⟩ := sharedNodes_subset hshared
  obtain ⟨n, hn, hplacement⟩ := Outcome.exists_of_mem_right hplaced hp
  exact ⟨lead, t, n, ht, hnodes n hn, hplacement⟩

/-- **All placements of tables that are spread alike are made at nodes of one that leads.** -/
theorem isMadeAtNode_of_ofBound {conditions : List Condition} {r : Routing}
    (h : ofBound rule tables conditions = .ok r) :
    ∀ p ∈ r.placements, IsMadeAtNode rule tables p := by
  intro p hp
  unfold ofBound at h
  split at h
  · cases h
    cases hp
  · split at h
    · obtain ⟨⟨nodes, ps⟩, hps, h⟩ := Outcome.bind_eq_ok.1 h
      cases h
      exact isMadeAtNode_of_underCondition hps p ((mem_ofPlacements ..).1 hp)
    · obtain ⟨rows, hrows, h⟩ := Outcome.bind_eq_ok.1 h
      cases h
      obtain ⟨⟨nodes, ps⟩, hrow, hp⟩ := List.mem_flatMap.1 ((mem_ofPlacements ..).1 hp)
      obtain ⟨c, -, hrow⟩ := Outcome.exists_of_mem_right hrows hrow
      rw [ofRow] at hrow
      split at hrow
      · cases hrow
        cases hp
      · exact isMadeAtNode_of_underCondition hrow p hp

/-- **Tables that are spread alike are mapped to their nodes.** -/
theorem namesNodes_of_ofBound {conditions : List Condition} {r : Routing}
    (h : ofBound rule tables conditions = .ok r) :
    ∀ p ∈ r.placements, p.NamesNodes rule tables := by
  intro p hp
  obtain ⟨lead, t, n, ht, hn, hplacement⟩ := isMadeAtNode_of_ofBound h p hp
  exact namesNodes_of_placementAt ht hn hplacement

/-! ### Groups -/

/-- A table is in its own group. -/
theorem mem_groupOf {table : String} (h : table ∈ tables) : table ∈ groupOf rule tables table := by
  rw [groupOf]
  cases hgroup : rule.bindingGroup? table with
  | none => exact List.mem_singleton.2 rfl
  | some group => exact List.mem_filter.2 ⟨h, by simpa using List.find?_some hgroup⟩

/-- **Every table of a statement is in one of the groups**, in some spelling. -/
theorem exists_mem_groups (rule : Rule) {name : String} (h : name ∈ tables) :
    ∃ group ∈ groups rule tables, Text.memName name group = true := by
  refine Lists.foldl_covers
    (P := fun found other => ∃ group ∈ found, Text.memName other group = true) ?_ ?_ [] name h
  · intro found table htable
    rw [addGroup]
    split
    · rename_i hfound
      exact List.any_eq_true.1 hfound
    · refine ⟨groupOf rule tables table, List.mem_append_right _ (List.mem_singleton.2 rfl), ?_⟩
      exact List.any_eq_true.2 ⟨table, mem_groupOf htable, Text.sameName_refl table⟩
  · rintro found table other ⟨group, hgroup, hother⟩
    refine ⟨group, ?_, hother⟩
    rw [addGroup]
    split
    · exact hgroup
    · exact List.mem_append_left _ hgroup

/-! ### Joins -/

/-- **Every placement of tables in several groups is made of one placement of each group**, which is
at a node in its data source. -/
theorem exists_way_of_ofJoined {conditions : List Condition} {r : Routing}
    (h : ofJoined rule tables conditions = .ok r) {p : Placement} (hp : p ∈ r.placements) :
    ∃ c, List.Forall₂ (fun group q => IsMadeAtNode rule group q ∧
        q.source.logic = p.source.logic) (groups rule tables) c ∧
      p.tables = c.flatMap (·.tables) := by
  obtain ⟨routings, hroutings, h⟩ := Outcome.bind_eq_ok.1 h
  obtain ⟨c, hc, htables⟩ := exists_way_of_join h hp
  refine ⟨c, ?_, htables⟩
  exact Lists.forall₂_of_forall₂ (Outcome.mapM_eq_ok.1 hroutings).flip (mem_combinations.1 hc).flip
    fun _ _ q hrouting hq => ⟨isMadeAtNode_of_ofBound hrouting q hq.1, hq.2⟩

/-- Placements in one data source map the tables of all of them to their nodes. -/
theorem namesNodes_together {source : String} {groups : List (List String)} {c : List Placement}
    (h : List.Forall₂ (fun group q => IsMadeAtNode rule group q ∧ q.source.logic = source)
      groups c) : (Placement.together source c).NamesNodes rule groups.flatten := by
  induction h with
  | nil => exact ⟨fun r hr => (by cases hr), fun name hname => by cases hname⟩
  | @cons group q groups c hq _ ih =>
      obtain ⟨⟨lead, t, n, ht, hn, hplacement⟩, hsource⟩ := hq
      have hnamed := namesNodes_of_placementAt ht hn hplacement
      have hmoved : (Placement.mk (.same source) q.tables).NamesNodes rule group :=
        hnamed.congr hsource.symm rfl
      exact hmoved.withTables ih

/-- **Tables in several groups are mapped to their nodes.** -/
theorem namesNodes_of_ofJoined {conditions : List Condition} {r : Routing}
    (h : ofJoined rule tables conditions = .ok r) :
    ∀ p ∈ r.placements, p.NamesNodes rule tables := by
  intro p hp
  obtain ⟨c, hc, htables⟩ := exists_way_of_ofJoined h hp
  have hnamed : p.NamesNodes rule (groups rule tables).flatten :=
    (namesNodes_together hc).congr rfl htables
  refine ⟨hnamed.node, fun name hname => ?_⟩
  obtain ⟨group, hgroup, hmem⟩ := exists_mem_groups rule hname
  obtain ⟨other, hother, hsame⟩ := List.any_eq_true.1 hmem
  obtain ⟨r, hr, hr'⟩ := hnamed.named other (List.mem_flatten.2 ⟨group, hgroup, hother⟩)
  exact ⟨r, hr, Text.sameName_trans hr' (Text.sameName_comm name other ▸ hsame)⟩

/-! ### Statements -/

theorem namesNodes_of_ofSharded {conditions : List Condition} {r : Routing}
    (h : ofSharded rule tables conditions = .ok r) :
    ∀ p ∈ r.placements, p.NamesNodes rule tables := by
  rw [ofSharded] at h
  split at h
  · exact namesNodes_of_ofBound h
  · exact namesNodes_of_ofJoined h

/-- A placement at a node of each table maps one of the tables to the node. -/
theorem namesNodes_of_everyNode {r : Routing} (h : everyNode rule tables = .ok r) :
    ∀ p ∈ r.placements, ∃ name ∈ tables, p.NamesNodes rule [name] := by
  intro p hp
  obtain ⟨placed, hplaced, h⟩ := Outcome.bind_eq_ok.1 h
  cases h
  obtain ⟨ps, hps, hp⟩ := List.mem_flatten.1 ((mem_ofPlacements ..).1 hp)
  obtain ⟨name, hname, hplaced⟩ := Outcome.exists_of_mem_right hplaced hps
  obtain ⟨t, ht, hplaced⟩ := Outcome.bind_eq_ok.1 hplaced
  cases hplaced
  obtain ⟨n, hn, rfl⟩ := List.mem_map.1 hp
  refine ⟨name, hname, ⟨fun r hr o ho => ?_, fun other hother => ?_⟩⟩
  · cases List.mem_singleton.1 hr
    rw [Rule.table_eq_ok.1 ht] at ho
    cases ho
    exact hn
  · exact ⟨_, List.mem_singleton.2 rfl, List.mem_singleton.1 hother ▸ Text.sameName_refl _⟩

/-- Where no table is sharded all of them keep their names. -/
theorem namesNodes_unchanged (h : rule.shardedAmong tables = []) (source : String) :
    (unchanged tables source).NamesNodes rule (rule.shardedAmong tables) := by
  rw [h]
  refine .of_unsharded fun name hname => ?_
  have hnone := List.filter_eq_nil_iff.1 h name hname
  simpa using hnone

/-- **The sharded tables of a statement on rows are mapped to their nodes.** -/
theorem namesNodes_of_ofRows (hbroadcast : rule.allBroadcast tables = false) {readOnly : Bool}
    {conditions : List Condition} {r : Routing}
    (h : ofRows rule readOnly tables conditions = .ok r) :
    ∀ p ∈ r.placements, p.NamesNodes rule (rule.shardedAmong tables) := by
  rw [ofRows, hbroadcast, if_neg Bool.false_ne_true] at h
  split at h
  · rename_i hnone
    intro p hp
    obtain ⟨source, hplacements⟩ := isUnchanged_of_byDefault h
    rw [hplacements] at hp
    obtain ⟨source, -, rfl⟩ := List.mem_map.1 hp
    exact namesNodes_unchanged (List.isEmpty_iff.1 hnone) source
  · exact namesNodes_of_ofSharded h

/-- One of the sharded tables of a definition is mapped to a node, if there are any. -/
theorem namesNodes_of_ofDefinition {r : Routing} (h : ofDefinition rule tables = .ok r) :
    ∀ p ∈ r.placements, p.NamesNodes rule (rule.shardedAmong tables) ∨
      ∃ name ∈ rule.shardedAmong tables, p.NamesNodes rule [name] := by
  intro p hp
  rw [ofDefinition] at h
  split at h
  · rename_i hnone
    cases h
    obtain ⟨source, -, rfl⟩ := List.mem_map.1 ((mem_ofPlacements ..).1 hp)
    exact .inl (namesNodes_unchanged (List.isEmpty_iff.1 hnone) source)
  · exact .inr (namesNodes_of_everyNode h p hp)

/-- Tables that are not sharded do not change what has been mapped. -/
theorem exists_of_mem_addUnsharded {r : Routing} {p : Placement}
    (hp : p ∈ (addUnsharded rule tables r).placements) :
    ∃ q ∈ r.placements, ∀ names, q.NamesNodes rule names → p.NamesNodes rule names := by
  rw [addUnsharded] at hp
  split at hp
  · exact ⟨p, hp, fun _ hnamed => hnamed⟩
  · obtain ⟨q, hq, rfl⟩ := List.mem_map.1 hp
    refine ⟨q, hq, fun names hnamed => ?_⟩
    have hmore : ∀ name ∈ tables.filter (fun t => !rule.isSharded t),
        rule.isSharded name = false := by
      intro name hname
      simpa using (List.mem_filter.1 hname).2
    have hboth := hnamed.withTables (.of_unsharded hmore)
    rw [List.append_nil] at hboth
    exact hboth

/-- **Statements of every kind map sharded tables to their nodes**: those on rows all that they
name, and definitions at least one. -/
theorem namesNodes_of_ofTables {s : Statement} {conditions : List Condition} {r : Routing}
    (hbroadcast : s.IsOnRows → rule.allBroadcast s.tableNames = false)
    (h : ofTables rule s conditions = .ok r) :
    ∀ p ∈ r.placements, p.NamesNodes rule (rule.shardedAmong s.tableNames) ∨
      ¬ s.IsOnRows ∧ ∃ name ∈ rule.shardedAmong s.tableNames, p.NamesNodes rule [name] := by
  intro p hp
  obtain ⟨core, hcore, rfl⟩ := Outcome.map_eq_ok.1 h
  obtain ⟨q, hq, hkeep⟩ := exists_of_mem_addUnsharded hp
  by_cases hrows : s.IsOnRows
  · rw [core_of_isOnRows hrows] at hcore
    exact .inl (hkeep _ (namesNodes_of_ofRows (hbroadcast hrows) hcore q hq))
  · have hdefinition : ofDefinition rule s.tableNames = .ok core := by
      cases s with
      | ddl refs => exact hcore
      | dcl refs => exact hcore
      | _ => exact absurd trivial hrows
    rcases namesNodes_of_ofDefinition hdefinition q hq with hnamed | ⟨name, hname, hnamed⟩
    · exact .inl (hkeep _ hnamed)
    · exact .inr ⟨hrows, name, hname, hkeep _ hnamed⟩

end Routing

/-! ### Statements -/

namespace Placement.NamesNodes

variable {p : Placement} {s : Statement}

/-- A placement that maps the sharded tables of a statement finds each of them. -/
theorem renames_of_mem (h : p.NamesNodes rule (rule.shardedAmong s.tableNames)) :
    ∀ ref ∈ s.tables, ∀ t, rule.table? ref.name = some t → p.Renames t ref.name := by
  intro ref href t ht
  obtain ⟨name, hname, hsame⟩ := Condition.exists_mem_foldl_addName href
  have hsharded : rule.isSharded name = true := by
    rw [Rule.isSharded_congr hsame, rule.isSharded_iff]
    exact ⟨t, ht⟩
  exact h.renames (List.mem_filter.2 ⟨hname, hsharded⟩) hsame ht

/-- A placement that maps a sharded table of a statement finds a table that the statement names. -/
theorem exists_renames {names : List String} (h : p.NamesNodes rule names) {name : String}
    (hname : name ∈ names) (hsharded : name ∈ rule.shardedAmong s.tableNames) :
    ∃ ref ∈ s.tables, ∃ t, rule.table? ref.name = some t ∧ p.Renames t ref.name := by
  obtain ⟨htable, hsharded⟩ := List.mem_filter.1 hsharded
  obtain ⟨t, ht⟩ := (rule.isSharded_iff name).1 hsharded
  rcases Condition.mem_foldl_addName htable with hnone | ⟨ref, href, rfl⟩
  · cases hnone
  · exact ⟨ref, href, t, ht, h.renames hname (Text.sameName_refl _) ht⟩

end Placement.NamesNodes

/-- **Every sharded table that a statement names is found at a node of its own.**  A routing that
leads nowhere may have one placement, which is without tables.  Every other placement finds a node
of each sharded table of a statement on rows, which is not on tables that all are on every data
source, and of one sharded table of a definition. -/
theorem LogicalSql.route_renames {sql : LogicalSql} {s s' : Rule.Counters} {r : Routed}
    (hbroadcast : sql.statement.IsOnRows → rule.allBroadcast sql.statement.tableNames = false)
    (hroute : (sql.route rule).run.run s = (.ok r, s')) :
    ∀ p ∈ r.routing.placements,
      (r.routing.placements = [p] ∧ p.tables = [] ∧
        ∃ g, rule.replicas = [g] ∧ p.source.logic = g.name) ∨
      ((sql.statement.IsOnRows ∨ (rule.shardedAmong sql.statement.tableNames).length ≤ 1 →
        ∀ ref ∈ sql.statement.tables, ∀ t, rule.table? ref.name = some t →
          p.Renames t ref.name) ∧
      (rule.shardedAmong sql.statement.tableNames ≠ [] →
        ∃ ref ∈ sql.statement.tables, ∃ t, rule.table? ref.name = some t ∧
          p.Renames t ref.name)) := by
  intro p hp
  obtain ⟨conditions, routing, _, -, hofTables, hreplicated, -⟩ := route_steps hroute
  by_cases hnowhere : routing.placements = []
  · left
    rcases Routing.withReplicas_of_nowhere hnowhere hreplicated with hnone | ⟨g, q, hg, hq, hspec⟩
    · rw [hnone] at hp
      cases hp
    · rw [hq, List.mem_singleton] at hp
      subst hp
      exact ⟨hq, hspec.1, g, hg, hspec.2⟩
  · right
    have hmoved := (Routing.withReplicas_spec hreplicated).2 hnowhere
    obtain ⟨q, hq, hextends⟩ := Lists.exists_of_forall₂_right hmoved hp
    have htables : p.tables = q.tables := by rw [hextends.tables, List.append_nil]
    rcases Routing.namesNodes_of_ofTables hbroadcast hofTables q hq with
      hnamed | ⟨hdefinition, name, hname, hnamed⟩
    · have hnamed := hnamed.congr hextends.logic htables
      refine ⟨fun _ => hnamed.renames_of_mem, fun hne => ?_⟩
      obtain ⟨name, hname⟩ := List.exists_mem_of_ne_nil _ hne
      exact hnamed.exists_renames hname hname
    · have hnamed := hnamed.congr hextends.logic htables
      refine ⟨fun hone => ?_, fun _ => hnamed.exists_renames (List.mem_singleton.2 rfl) hname⟩
      -- the table that the placement maps is the only one
      have hsingle : rule.shardedAmong sql.statement.tableNames = [name] := by
        obtain ⟨other, hother⟩ := List.length_eq_one_iff.1 (Nat.le_antisymm
          (hone.resolve_left hdefinition) (List.length_pos_of_mem hname))
        rw [hother] at hname ⊢
        rw [List.mem_singleton.1 hname]
      exact (hsingle ▸ hnamed).renames_of_mem

open Routing

/-! ### Orders with their items -/

/-- A search for the first order with the items of user zero. -/
def orderItems : LogicalSql where
  text := "SELECT * FROM t_order, t_item WHERE t_order.order_id = 1 AND t_item.user_id = 0"
  statement := .select {
    tables := [.ofName "t_order" 14, .ofName "t_item" 23]
    condition := some (.and [
      .compare (.qualified "t_order" "order_id" 36) .eq (.literal (.int 1) 55 55),
      .compare (.qualified "t_item" "user_id" 61) .eq (.literal (.int 0) 78 78)]) }
  parameters := []

/-- A search for all orders. -/
def allOrders : LogicalSql where
  text := "SELECT * FROM t_order"
  statement := .select { tables := [.ofName "t_order" 14] }
  parameters := []

/-- A search for an order with two numbers, which there is not. -/
def noOrder : LogicalSql where
  text := "SELECT * FROM t_order WHERE order_id = 1 AND order_id = 2"
  statement := .select {
    tables := [.ofName "t_order" 14]
    condition := some (.and [.compare (.ofName "order_id" 28) .eq (.literal (.int 1) 39 39),
      .compare (.ofName "order_id" 45) .eq (.literal (.int 2) 56 56)]) }
  parameters := []

/-- The removal of two tables. -/
def dropBoth : LogicalSql where
  text := "DROP TABLE t_order, t_item"
  statement := .ddl [.ofName "t_order" 11, .ofName "t_item" 20]
  parameters := []

/-- Some placement of a statement finds no node of a sharded table that the statement names. -/
def LogicalSql.Misnames (sql : LogicalSql) (rule : Rule) : Prop :=
  ∃ r s', (sql.route rule).run.run rule.start = (.ok r, s') ∧ ∃ p ∈ r.routing.placements,
    ∃ ref ∈ sql.statement.tables, ∃ t, rule.table? ref.name = some t ∧ ¬ p.Renames t ref.name

namespace LogicalSql

/-- Both tables of the search for an order with items are found at nodes. -/
theorem route_renames_orderItems :
    ∃ r s', (orderItems.route (pairRule [] [])).run.run (pairRule [] []).start = (.ok r, s') ∧
      r.routing.placements ≠ [] ∧ ∀ p ∈ r.routing.placements,
        p.Renames (pairTable "t_order") "t_order" ∧ p.Renames (pairTable "t_item") "t_item" := by
  have hroute : (orderItems.route (pairRule [] [])).run.run (pairRule [] []).start =
      (.ok ⟨orderItems, ⟨[⟨.same "ds_0", [⟨"t_order", "t_order_1"⟩, ⟨"t_item", "t_item_1"⟩]⟩],
        [[⟨"ds_0", "t_order_1"⟩]]⟩, none⟩, (pairRule [] []).start) := rfl
  refine ⟨_, _, hroute, List.cons_ne_nil _ _, fun p hp => ?_⟩
  rcases route_renames (fun _ => rfl) hroute p hp with ⟨-, -, g, hg, -⟩ | ⟨hrenames, -⟩
  · cases hg
  · have hboth := hrenames (.inl trivial)
    exact ⟨hboth (.ofName "t_order" 14) (List.mem_cons_self ..) _ rfl,
      hboth (.ofName "t_item" 23) (List.mem_cons_of_mem _ (List.mem_cons_self ..)) _ rfl⟩

/-- A table that is also on every data source keeps its name; of two tables that are removed each
placement finds one; and where a routing leads nowhere, a single group of replicas makes a placement
without tables. -/
theorem route_misnames :
    (Rule.ofConfig .builtin (pairConfig ["t_order"] []) = .ok (pairRule ["t_order"] []) ∧
      allOrders.Misnames (pairRule ["t_order"] [])) ∧
    (Rule.ofConfig .builtin (pairConfig [] []) = .ok (pairRule [] []) ∧
      dropBoth.Misnames (pairRule [] [])) ∧
    (Rule.ofConfig .builtin (pairConfig [] [⟨"ds_all", "primary", ["replica"], none⟩]) =
        .ok (pairRule [] [⟨"ds_all", "primary", ["replica"], .roundRobin⟩]) ∧
      noOrder.Misnames (pairRule [] [⟨"ds_all", "primary", ["replica"], .roundRobin⟩])) := by
  refine ⟨⟨by decide +kernel, ?_⟩, ⟨by decide +kernel, ?_⟩, ⟨by decide +kernel, ?_⟩⟩
  · exact ⟨_, _, rfl, ⟨.same "ds_0", [.same "t_order"]⟩, by decide +kernel,
      .ofName "t_order" 14, by decide +kernel, _, rfl, by decide +kernel⟩
  · exact ⟨_, _, rfl, ⟨.same "ds_0", [⟨"t_order", "t_order_0"⟩]⟩, by decide +kernel,
      .ofName "t_item" 20, by decide +kernel, _, rfl, by decide +kernel⟩
  · exact ⟨_, _, rfl, ⟨⟨"ds_all", "replica"⟩, []⟩, by decide +kernel,
      .ofName "t_order" 14, by decide +kernel, _, rfl, by decide +kernel⟩

end LogicalSql

end ShardedSql
