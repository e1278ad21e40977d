/-
**Tables that are spread alike are routed to the places that they agree on.**

Tables that are spread alike have their rows for one join at the same place: in the same data
source, in the actual tables at the same position.  So what a condition leaves of one of them says
something of all of them.  Routing narrows the nodes of the table that leads by one other table
after another; in the end those are left at whose place every table that the condition says
something of has a node, and the placements map each table to its actual one at that place.

Main definitions:

* `ShardedSql.TableRule.NamesApart` — the actual tables of a data source have different names;
* `ShardedSql.TableRule.position` — the position of a node in its data source;
* `ShardedSql.Routing.Leaves` — the rules of some tables, and the nodes that a condition leaves;
* `ShardedSql.Routing.agreed` — **the nodes of the leading table that the others agree on**;
* `ShardedSql.Routing.IsAt` — a placement of all tables at a node of the leading one.

Main results:

* `ShardedSql.TableRule.nodup_nodesFor` — no node is left twice;
* `ShardedSql.Rule.bindingActualTable_eq_ok` — tables are mapped by position;
* `ShardedSql.Routing.Leaves.foldlM_narrow` — **narrowing table by table leaves what all agree on**;
* `ShardedSql.Routing.ofBound_spec` — routing leads to the nodes that are agreed on, and it is
  refused when there are none.
-/

import ShardedSql.Proofs.Routing.Single
import ShardedSql.Rule.Build

set_option relaxedAutoImplicit false
set_option autoImplicit false

namespace ShardedSql

/-! ### Places -/

namespace TableRule

variable {t : TableRule} {n : DataNode}

/-- The actual tables of a data source have different names. -/
def NamesApart (t : TableRule) : Prop :=
  t.nodes.Pairwise fun n m =>
    n.dataSource = m.dataSource → Text.sameName n.table m.table = false

/-- The position of a node among those of its data source. -/
def position (t : TableRule) (n : DataNode) : Nat := (t.tablesIn n.dataSource).idxOf n.table

theorem NamesApart.allDiffer_tablesIn (h : t.NamesApart) (source : String) :
    Text.AllDiffer (t.tablesIn source) := by
  rw [Text.AllDiffer, tablesIn, List.pairwise_map, List.pairwise_filter]
  refine h.imp fun {n m} hnm hn hm => hnm ?_
  rw [of_decide_eq_true hn, of_decide_eq_true hm]

/-- The actual table of a node stands at its position. -/
theorem getElem?_position (hn : n ∈ t.nodes) :
    (t.tablesIn n.dataSource)[t.position n]? = some n.table := by
  have hlt := List.idxOf_lt_length_iff.2 ((t.mem_tablesIn n.dataSource n.table).2 hn)
  rw [position, List.getElem?_eq_getElem hlt, List.getElem_idxOf]

theorem indexOf?_eq_position (h : t.NamesApart) (hn : n ∈ t.nodes) :
    t.indexOf? n.dataSource n.table = some (t.position n) :=
  indexOf?_eq_some (h.allDiffer_tablesIn n.dataSource) (getElem?_position hn)
    (Text.sameName_refl n.table)

theorem place?_eq_position (h : t.NamesApart) (hn : n ∈ t.nodes) :
    t.place? n = some (n.dataSource, t.position n) := by
  rw [place?, indexOf?_eq_position h hn]
  rfl

theorem eq_of_getElem?_position {a : String}
    (h : (t.tablesIn n.dataSource)[t.position n]? = some a) : n.table = a := by
  obtain ⟨hlt, ha⟩ := List.getElem?_eq_some_iff.1 h
  rw [← ha]
  exact (List.getElem_idxOf hlt).symm

/-- **No node is left twice.** -/
theorem nodup_nodesFor (h : t.NamesApart) {condition : Option Condition} {nodes : List DataNode}
    (hnodes : t.nodesFor condition = .ok nodes) : nodes.Nodup := by
  obtain ⟨sources, hsources, hrest⟩ := Outcome.bind_eq_ok.1 hnodes
  obtain ⟨parts, hparts, hflatten⟩ := Outcome.bind_eq_ok.1 hrest
  cases hflatten
  have hnodup : sources.Nodup :=
    (Strategy.targets_sublist hsources).nodup (Lists.nodup_eraseDups _)
  rw [Outcome.mapM_eq_ok] at hparts
  clear hsources hnodes hrest
  -- the nodes of one data source are not among those of the others
  have hspec : parts.flatten.Nodup ∧ ∀ n ∈ parts.flatten, n.dataSource ∈ sources := by
    induction hparts with
    | nil => exact ⟨List.nodup_nil, fun n hn => by cases hn⟩
    | @cons source part sources parts hpart _ ih =>
        obtain ⟨hsource, hnodup⟩ := List.nodup_cons.1 hnodup
        obtain ⟨hrest, hmem⟩ := ih hnodup
        obtain ⟨tables, htables, hpart⟩ := Outcome.bind_eq_ok.1 hpart
        cases hpart
        have hpart : (tables.map (DataNode.mk source)).Nodup := by
          have hdiffer := (h.allDiffer_tablesIn source).nodup
          refine ((Strategy.targets_sublist htables).nodup hdiffer).map ?_
          intro a b hab
          exact (DataNode.mk.inj hab).2
        rw [List.flatten_cons]
        constructor
        · refine hpart.append hrest fun n hn hn' => hsource ?_
          obtain ⟨table, -, rfl⟩ := List.mem_map.1 hn
          exact hmem _ hn'
        · intro n hn
          rcases List.mem_append.1 hn with hn | hn
          · obtain ⟨table, -, rfl⟩ := List.mem_map.1 hn
            exact List.mem_cons_self ..
          · exact List.mem_cons_of_mem _ (hmem n hn)
  exact hspec.1

end TableRule

namespace Rule

variable {rule : Rule} {logic other : String} {t o : TableRule} {n : DataNode}

/-- **Tables that are spread alike are mapped by position.** -/
theorem bindingActualTable_eq_ok (ht : rule.table? logic = some t)
    (ho : rule.table? other = some o) (hapart : o.NamesApart) (hn : n ∈ o.nodes)
    {actual : String} :
    rule.bindingActualTable n.dataSource logic other n.table = .ok actual ↔
      (t.tablesIn n.dataSource)[o.position n]? = some actual :=
  bindingActualTable_of_indexOf? ht ho (TableRule.indexOf?_eq_position hapart hn)

/-- Mapping tables by position does not report that tables are at different shards. -/
theorem message_of_bindingActualTable (ht : rule.table? logic = some t)
    (ho : rule.table? other = some o) (hapart : o.NamesApart) (hn : n ∈ o.nodes) {e : Fault}
    (h : rule.bindingActualTable n.dataSource logic other n.table = .error e) :
    e.message = "Binding tables have different numbers of actual tables" := by
  rw [bindingActualTable, Rule.table_eq_ok.2 ho] at h
  simp only [bind, Except.bind, TableRule.indexOf?_eq_position hapart hn,
    Rule.table_eq_ok.2 ht] at h
  cases hat : (t.tablesIn n.dataSource)[o.position n]? with
  | none =>
      rw [hat] at h
      cases h
      rfl
  | some a =>
      rw [hat] at h
      cases h

end Rule

namespace Placement

/-- What a placement finds for a logical table is one of its renamings. -/
theorem actual?_of_mem {p : Placement} {table : String}
    (h : ∃ t ∈ p.tables, Text.sameName t.logic table = true) :
    ∃ t ∈ p.tables, Text.sameName t.logic table = true ∧ p.actual? table = some t.actual := by
  have hfound : (p.tables.find? fun t => Text.sameName t.logic table).isSome = true :=
    List.find?_isSome.2 h
  obtain ⟨t, ht⟩ := Option.isSome_iff_exists.1 hfound
  have hsame : Text.sameName t.logic table = true := by simpa using List.find?_some ht
  refine ⟨t, List.mem_of_find?_eq_some ht, hsame, ?_⟩
  rw [actual?, ht]
  rfl

end Placement

namespace Routing

variable {rule : Rule} {tables : List String} {lead : String} {condition : Option Condition}
  {rules : String → TableRule} {left : String → List DataNode}

/-! ### Placements -/

/-- The actual table of a table at a node of the leading one. -/
def actualAt (rule : Rule) (lead : String) (n : DataNode) (table : String) : Outcome String :=
  if table = lead then .ok n.table
  else rule.bindingActualTable n.dataSource table lead n.table

/-- A placement at a node maps each table to its actual one there. -/
theorem placementAt_eq_ok {n : DataNode} {p : Placement} :
    placementAt rule tables lead n = .ok p ↔
      p.source = Renaming.same n.dataSource ∧
        List.Forall₂ (fun table t => t.logic = table ∧
          actualAt rule lead n table = .ok t.actual) tables p.tables := by
  have hstep (table : String) (t : Renaming) :
      (if table = lead then pure (Renaming.mk table n.table)
        else do
          let actual ← rule.bindingActualTable n.dataSource table lead n.table
          pure (Renaming.mk table actual) : Outcome Renaming) = .ok t ↔
        t.logic = table ∧ actualAt rule lead n table = .ok t.actual := by
    obtain ⟨logic, actual⟩ := t
    unfold actualAt
    split
    · simp [pure, Except.pure, eq_comm]
    · rw [Outcome.bind_eq_ok]
      simp only [pure, Except.pure, Except.ok.injEq, Renaming.mk.injEq]
      constructor
      · rintro ⟨a, ha, rfl, rfl⟩
        exact ⟨rfl, ha⟩
      · rintro ⟨rfl, ha⟩
        exact ⟨actual, ha, rfl, rfl⟩
  rw [placementAt, Outcome.bind_eq_ok]
  simp only [Outcome.mapM_eq_ok, hstep]
  obtain ⟨source, renamings⟩ := p
  simp only [pure, Except.pure, Except.ok.injEq, Placement.mk.injEq]
  constructor
  · rintro ⟨found, hfound, rfl, rfl⟩
    exact ⟨rfl, hfound⟩
  · rintro ⟨rfl, hfound⟩
    exact ⟨renamings, hfound, rfl, rfl⟩

/-- A placement at a node maps the tables in their order. -/
theorem logics_of_placementAt {n : DataNode} {p : Placement}
    (h : placementAt rule tables lead n = .ok p) : p.tables.map (·.logic) = tables := by
  have hnames : List.Forall₂ (· = ·) tables (p.tables.map (·.logic)) := by
    rw [List.forall₂_map_right_iff]
    exact (placementAt_eq_ok.1 h).2.imp fun _ _ ht => ht.1.symm
  rw [List.forall₂_eq_eq_eq] at hnames
  exact hnames.symm

/-! ### What a condition leaves -/

/-- The rules of some tables, of which one leads, and the nodes that a condition leaves of that one
and of those that it says something of. -/
structure Leaves (rule : Rule) (tables : List String) (lead : String)
    (condition : Option Condition) (rules : String → TableRule)
    (left : String → List DataNode) : Prop where
  table : ∀ table ∈ tables, rule.table? table = some (rules table)
  apart : ∀ table ∈ tables, (rules table).NamesApart
  nodes : ∀ table ∈ tables, (table = lead ∨ ∃ c ∈ condition, c.mentions table = true) →
    (rules table).nodesFor condition = .ok (left table)

/-- A node of the leading table is at the place of a node of another one. -/
def sharesPlace (rules : String → TableRule) (left : String → List DataNode) (lead : String)
    (n : DataNode) (other : String) : Bool :=
  (left other).any fun m =>
    m.dataSource = n.dataSource && (rules other).position m = (rules lead).position n

/-- The other tables that the condition says something of and of which it leaves nodes. -/
def narrowing (tables : List String) (lead : String) (condition : Option Condition)
    (left : String → List DataNode) : List String :=
  tables.filter fun table =>
    table ≠ lead && condition.any (·.mentions table) && !(left table).isEmpty

/-- **The nodes of the leading table that the others agree on**: at the place of each of them every
other table that the condition says something of, and of which it leaves nodes, has one. -/
def agreed (tables : List String) (lead : String) (condition : Option Condition)
    (rules : String → TableRule) (left : String → List DataNode) : List DataNode :=
  (left lead).filter fun n =>
    (narrowing tables lead condition left).all (sharesPlace rules left lead n)

/-- The fault of tables that agree on no node. -/
def disagreement (lead other : String) : Fault :=
  (Fault.algorithm "Binding tables routed to different shards")
    |>.note "table" lead |>.note "other_table" other

theorem leader_mem (first : String) (rest : List String) (condition : Option Condition) :
    leader first (first :: rest) condition ∈ first :: rest := by
  cases condition with
  | none => exact List.mem_cons_self ..
  | some c =>
      rw [leader]
      cases hfound : (first :: rest).find? c.mentions with
      | none => exact List.mem_cons_self ..
      | some table => exact List.mem_of_find?_eq_some hfound

namespace Leaves

theorem mem_nodes (h : Leaves rule tables lead condition rules left) {table : String}
    (htable : table ∈ tables)
    (hleft : table = lead ∨ ∃ c ∈ condition, c.mentions table = true) :
    ∀ n ∈ left table, n ∈ (rules table).nodes :=
  TableRule.nodesFor_subset (h.nodes table htable hleft)

/-- **Another table that the condition says something of narrows the nodes of the leading one to
those at its own places**, if both have nodes. -/
theorem narrow_eq {c : Condition} (h : Leaves rule tables lead (some c) rules left)
    (hleader : lead ∈ tables) {other : String} (hother : other ∈ tables)
    (hmentions : c.mentions other = true) {nodes : List DataNode}
    (hnodes : ∀ n ∈ nodes, n ∈ left lead) :
    narrow rule c (rules lead) lead nodes other =
      if nodes.isEmpty || (left other).isEmpty then .ok nodes
      else
        if (nodes.filter fun n => sharesPlace rules left lead n other).isEmpty then
          .error (disagreement lead other)
        else .ok (nodes.filter fun n => sharesPlace rules left lead n other) := by
  have hplaces : (left other).filterMap (rules other).place? =
      (left other).map fun m => (m.dataSource, (rules other).position m) := by
    rw [← List.filterMap_eq_map]
    refine List.filterMap_congr fun m hm => ?_
    exact TableRule.place?_eq_position (h.apart other hother)
      (h.mem_nodes hother (.inr ⟨c, rfl, hmentions⟩) m hm)
  have hfilter : (nodes.filter fun n => ((rules lead).place? n).any fun p =>
        ((left other).filterMap (rules other).place?).contains p) =
      nodes.filter fun n => sharesPlace rules left lead n other := by
    refine List.filter_congr fun n hn => ?_
    rw [TableRule.place?_eq_position (h.apart lead hleader)
      (h.mem_nodes hleader (.inl rfl) n (hnodes n hn)), hplaces]
    rw [Option.any_some, Bool.eq_iff_iff, List.contains_iff_mem, List.mem_map, sharesPlace,
      List.any_eq_true]
    simp
  rw [narrow, Rule.table_eq_ok.2 (h.table other hother)]
  simp only [bind, Except.bind, h.nodes other hother (.inr ⟨c, rfl, hmentions⟩), hfilter]
  rfl

/-- **Narrowing by one table after another leaves the nodes that all of them share**, and it fails
when there were nodes and none is left. -/
theorem foldlM_narrow {c : Condition} (h : Leaves rule tables lead (some c) rules left)
    (hleader : lead ∈ tables) {others : List String}
    (hothers : ∀ other ∈ others, other ∈ tables ∧ c.mentions other = true)
    {nodes : List DataNode} (hnodes : ∀ n ∈ nodes, n ∈ left lead) {kept : List DataNode}
    (hkept : kept = nodes.filter fun n =>
      others.all fun other => (left other).isEmpty || sharesPlace rules left lead n other) :
    if !nodes.isEmpty && kept.isEmpty then
      ∃ other ∈ others, others.foldlM (narrow rule c (rules lead) lead) nodes =
        .error (disagreement lead other)
    else others.foldlM (narrow rule c (rules lead) lead) nodes = .ok kept := by
  induction others generalizing nodes with
  | nil =>
      have hall : kept = nodes := by simp [hkept]
      subst hall
      cases kept <;> simp [pure, Except.pure]
  | cons other rest ih =>
      obtain ⟨⟨hother, hmentions⟩, hrest⟩ := List.forall_mem_cons.1 hothers
      have hmore {b : Bool} {P : String → Prop} {Q : Prop}
          (hP : if b then ∃ o ∈ rest, P o else Q) :
          if b then ∃ o ∈ other :: rest, P o else Q := by
        cases b with
        | false => exact hP
        | true =>
            obtain ⟨o, ho, hP⟩ := hP
            exact ⟨o, List.mem_cons_of_mem other ho, hP⟩
      rw [List.foldlM_cons, h.narrow_eq hleader hother hmentions hnodes]
      by_cases hskip : (nodes.isEmpty || (left other).isEmpty) = true
      · -- nothing is narrowed by this table
        rw [if_pos hskip]
        have hsame : kept = nodes.filter fun n =>
            rest.all fun o => (left o).isEmpty || sharesPlace rules left lead n o := by
          rw [hkept]
          refine List.filter_congr fun n hn => ?_
          have hempty : (left other).isEmpty = true := by
            cases nodes with
            | nil => cases hn
            | cons m ms => simpa using hskip
          rw [List.all_cons, hempty, Bool.true_or, Bool.true_and]
        exact hmore (ih hrest hnodes hsame)
      · rw [if_neg hskip]
        rw [Bool.or_eq_true, not_or] at hskip
        have hshared : kept = (nodes.filter fun n => sharesPlace rules left lead n other).filter
            fun n => rest.all fun o =>
              (left o).isEmpty || sharesPlace rules left lead n o := by
          rw [hkept, List.filter_filter]
          refine List.filter_congr fun n _ => ?_
          rw [List.all_cons, Bool.eq_false_iff.2 hskip.2, Bool.false_or, Bool.and_comm]
        by_cases hnone : (nodes.filter fun n =>
            sharesPlace rules left lead n other).isEmpty = true
        · rw [if_pos hnone]
          rw [List.isEmpty_iff.1 hnone] at hshared
          rw [hshared, Bool.eq_false_iff.2 hskip.1]
          exact ⟨other, List.mem_cons_self .., rfl⟩
        · rw [if_neg hnone]
          have hrec := ih hrest (fun n hn => hnodes n (List.mem_of_mem_filter hn)) hshared
          rw [Bool.eq_false_iff.2 hnone] at hrec
          rw [Bool.eq_false_iff.2 hskip.1]
          exact hmore hrec

/-- **What the leading table keeps is what all agree on**, and routing is refused when the condition
leaves it nodes but no such one. -/
theorem sharedNodes_eq {first : String} {rest : List String}
    (hlead : lead = leader first (first :: rest) condition)
    (h : Leaves rule (first :: rest) lead condition rules left) :
    if !(left lead).isEmpty && (agreed (first :: rest) lead condition rules left).isEmpty then
      ∃ other, sharedNodes rule (first :: rest) condition = .error (disagreement lead other)
    else sharedNodes rule (first :: rest) condition =
      .ok (lead, agreed (first :: rest) lead condition rules left) := by
  have hmem : lead ∈ first :: rest := hlead ▸ leader_mem first rest condition
  rw [sharedNodes, ← hlead, Rule.table_eq_ok.2 (h.table lead hmem)]
  simp only [bind, Except.bind, h.nodes lead hmem (.inl rfl)]
  cases condition with
  | none =>
      have hall : agreed (first :: rest) lead none rules left = left lead := by
        simp [agreed, narrowing]
      rw [hall]
      cases left lead <;> simp [pure, Except.pure]
  | some c =>
      have hkept : agreed (first :: rest) lead (some c) rules left =
          (left lead).filter fun n =>
            ((first :: rest).filter fun t => t ≠ lead && c.mentions t).all fun other =>
              (left other).isEmpty || sharesPlace rules left lead n other := by
        rw [agreed]
        refine List.filter_congr fun n _ => ?_
        rw [narrowing, List.all_filter, List.all_filter]
        refine List.all_congr rfl fun table => ?_
        simp only [Option.any_some]
        cases (left table).isEmpty <;> simp
      have hothers : ∀ other ∈ (first :: rest).filter fun t => t ≠ lead && c.mentions t,
          other ∈ first :: rest ∧ c.mentions other = true := by
        intro other hother
        obtain ⟨hother, htest⟩ := List.mem_filter.1 hother
        exact ⟨hother, (Bool.and_eq_true_iff.1 htest).2⟩
      have hfold := h.foldlM_narrow hmem hothers (fun n hn => hn) hkept
      split at hfold
      · rename_i hnone
        obtain ⟨other, -, hfold⟩ := hfold
        rw [if_pos hnone]
        exact ⟨other, by simp only [hfold]⟩
      · rename_i hsome
        rw [if_neg hsome]
        simp only [hfold]
        rfl

end Leaves

/-! ### Routing -/

/-- A placement of tables at a node of the leading one: each table is mapped to its actual one at
the position of the node, and there it has a node that is left when it narrows those of the leading
table. -/
structure IsAt (tables : List String) (lead : String) (condition : Option Condition)
    (rules : String → TableRule) (left : String → List DataNode) (n : DataNode)
    (p : Placement) : Prop where
  source : p.source = Renaming.same n.dataSource
  names : p.tables.map (·.logic) = tables
  actual : ∀ table ∈ tables, ∃ a,
    ((rules table).tablesIn n.dataSource)[(rules lead).position n]? = some a ∧
      p.actual? table = some a ∧
      (table ∈ narrowing tables lead condition left → ⟨n.dataSource, a⟩ ∈ left table)

namespace Leaves

/-- The actual table at the position of a node is the one that the table is mapped to. -/
theorem actualAt_eq_ok (h : Leaves rule tables lead condition rules left) (hlead : lead ∈ tables)
    {n : DataNode} (hn : n ∈ (rules lead).nodes) {table a : String} (htable : table ∈ tables) :
    actualAt rule lead n table = .ok a ↔
      ((rules table).tablesIn n.dataSource)[(rules lead).position n]? = some a := by
  rw [actualAt]
  split
  · rename_i heq
    subst heq
    rw [TableRule.getElem?_position hn]
    simp
  · exact Rule.bindingActualTable_eq_ok (h.table table htable) (h.table lead hlead)
      (h.apart lead hlead) hn

/-- At the place of a node that is agreed on, every table that narrows has a node that is left. -/
theorem mem_left_of_narrowing (h : Leaves rule tables lead condition rules left) {n : DataNode}
    (hn : n ∈ agreed tables lead condition rules left) {table a : String}
    (hnarrows : table ∈ narrowing tables lead condition left)
    (hat : ((rules table).tablesIn n.dataSource)[(rules lead).position n]? = some a) :
    ⟨n.dataSource, a⟩ ∈ left table := by
  obtain ⟨htable, htest⟩ := List.mem_filter.1 hnarrows
  have hmentions : ∃ c ∈ condition, c.mentions table = true := by
    simp only [Bool.and_eq_true, Option.any_eq_true] at htest
    exact htest.1.2
  have hshares := List.all_eq_true.1 (List.mem_filter.1 hn).2 table hnarrows
  obtain ⟨m, hm, hplace⟩ := List.any_eq_true.1 hshares
  rw [Bool.and_eq_true, decide_eq_true_eq, decide_eq_true_eq] at hplace
  have hmat := TableRule.getElem?_position (h.mem_nodes htable (.inr hmentions) m hm)
  rw [hplace.1, hplace.2, hat] at hmat
  have hnode : m = ⟨n.dataSource, a⟩ :=
    DataNode.mk.injEq .. ▸ ⟨hplace.1, (Option.some.inj hmat).symm⟩
  exact hnode ▸ hm

/-- **A placement at a node that is agreed on maps every table by position**, and to a node that is
left of each table that narrows. -/
theorem isAt_of_mem_agreed (h : Leaves rule tables lead condition rules left)
    (hlead : lead ∈ tables) {n : DataNode}
    (hn : n ∈ agreed tables lead condition rules left) {p : Placement}
    (hp : placementAt rule tables lead n = .ok p) :
    IsAt tables lead condition rules left n p := by
  have hnode := h.mem_nodes hlead (.inl rfl) n (List.mem_of_mem_filter hn)
  obtain ⟨hsource, hrenamings⟩ := placementAt_eq_ok.1 hp
  refine ⟨hsource, logics_of_placementAt hp, fun table htable => ?_⟩
  obtain ⟨own, hown, hlogic, -⟩ := Lists.exists_of_forall₂ hrenamings htable
  have hnamed : Text.sameName own.logic table = true := hlogic.symm ▸ Text.sameName_refl table
  obtain ⟨t, ht, hsame, hactual⟩ := Placement.actual?_of_mem ⟨own, hown, hnamed⟩
  -- the renaming that is found may be of another spelling, which has the same rule
  obtain ⟨other, hother, hlogic, hat⟩ := Lists.exists_of_forall₂_right hrenamings ht
  have hrules : rules other = rules table := by
    have hcongr : rule.table? other = rule.table? table := Rule.table?_congr (hlogic ▸ hsame)
    rw [h.table other hother, h.table table htable] at hcongr
    exact Option.some.inj hcongr
  rw [h.actualAt_eq_ok hlead hnode hother, hrules] at hat
  exact ⟨t.actual, hat, hactual, fun hnarrows => h.mem_left_of_narrowing hn hnarrows hat⟩

/-- What a placement at a node fails with does not say that tables are at different shards. -/
theorem message_of_placementAt (h : Leaves rule tables lead condition rules left)
    (hlead : lead ∈ tables) {n : DataNode}
    (hn : n ∈ agreed tables lead condition rules left) {e : Fault}
    (hfault : placementAt rule tables lead n = .error e) :
    e.message = "Binding tables have different numbers of actual tables" := by
  have hn := h.mem_nodes hlead (.inl rfl) n (List.mem_of_mem_filter hn)
  rw [placementAt, Outcome.bind_eq_error] at hfault
  rcases hfault with hfault | ⟨renamings, -, hpure⟩
  · obtain ⟨table, htable, hfault⟩ := Outcome.exists_of_mapM_eq_error hfault
    split at hfault
    · cases hfault
    · rcases Outcome.bind_eq_error.1 hfault with hfault | ⟨a, -, hpure⟩
      · exact Rule.message_of_bindingActualTable (h.table table htable) (h.table lead hlead)
          (h.apart lead hlead) hn hfault
      · cases hpure
  · cases hpure

end Leaves

/-- There is a placement at a node when the other tables have actual ones at its position. -/
theorem exists_placementAt {n : DataNode} (h : ∀ table ∈ tables, table ≠ lead →
    ∃ a, rule.bindingActualTable n.dataSource table lead n.table = .ok a) :
    ∃ p, placementAt rule tables lead n = .ok p := by
  have hrenamings : ∀ table ∈ tables, ∃ t : Renaming,
      t.logic = table ∧ actualAt rule lead n table = .ok t.actual := by
    intro table htable
    by_cases heq : table = lead
    · exact ⟨⟨table, n.table⟩, rfl, if_pos heq⟩
    · obtain ⟨a, ha⟩ := h table htable heq
      exact ⟨⟨table, a⟩, rfl, (if_neg heq).trans ha⟩
  obtain ⟨renamings, hrenamings⟩ := Lists.exists_forall₂ hrenamings
  exact ⟨⟨Renaming.same n.dataSource, renamings⟩, placementAt_eq_ok.2 ⟨rfl, hrenamings⟩⟩

/-- A condition that rows can meet is routed by itself. -/
theorem ofBound_toList (hmeetable : ∀ c ∈ condition, c.alwaysFalse = false) :
    ofBound rule tables condition.toList = (underCondition rule tables condition).map fun p =>
      { ofPlacements p.2 with rowNodes := condition.toList.map fun _ => p.1 } := by
  cases condition with
  | none =>
      rw [Option.toList_none, ofBound, if_neg (by decide)]
      cases underCondition rule tables none <;> rfl
  | some c =>
      have hfalse : Condition.allFalse [c] = false := by
        simp [Condition.allFalse, hmeetable c rfl]
      rw [Option.toList_some]
      unfold ofBound
      rw [hfalse, if_neg Bool.false_ne_true]
      have hrow : [c].mapM (ofRow rule tables) =
          (underCondition rule tables (some c)).map fun p => [p] := by
        rw [List.mapM_cons, List.mapM_nil, ofRow, hmeetable c rfl, if_neg Bool.false_ne_true]
        cases underCondition rule tables (some c) <;> rfl
      simp only [hrow]
      cases underCondition rule tables (some c) with
      | error e => rfl
      | ok p => simp [bind, Except.bind, pure, Except.pure, Except.map]

theorem ofBound_of_sharedNodes (hmeetable : ∀ c ∈ condition, c.alwaysFalse = false)
    {nodes : List DataNode} (hshared : sharedNodes rule tables condition = .ok (lead, nodes)) :
    ofBound rule tables condition.toList =
      (nodes.mapM (placementAt rule tables lead)).map fun ps =>
        { ofPlacements ps with rowNodes := condition.toList.map fun _ => nodes } := by
  rw [ofBound_toList hmeetable, underCondition, hshared]
  simp only [bind, Except.bind]
  cases nodes.mapM (placementAt rule tables lead) <;> rfl

/-- A node is told by a placement at it. -/
theorem IsAt.node_inj (hlead : lead ∈ tables) {n m : DataNode} {p : Placement}
    (hn : IsAt tables lead condition rules left n p)
    (hm : IsAt tables lead condition rules left m p) : n = m := by
  obtain ⟨a, hna, hactual, -⟩ := hn.actual lead hlead
  obtain ⟨b, hmb, hactual', -⟩ := hm.actual lead hlead
  have hsource : n.dataSource = m.dataSource :=
    congrArg Renaming.logic (hn.source.symm.trans hm.source)
  have htable : n.table = m.table := by
    rw [TableRule.eq_of_getElem?_position hna, TableRule.eq_of_getElem?_position hmb]
    exact Option.some.inj (hactual.symm.trans hactual')
  calc n = ⟨n.dataSource, n.table⟩ := rfl
    _ = ⟨m.dataSource, m.table⟩ := by rw [hsource, htable]
    _ = m := rfl

/-- **Bound tables are routed to the nodes that they agree on.**  When the condition leaves nodes of
the leading table and the others agree on none of them, routing is refused, and only then is it
refused for that reason.  Otherwise, when the other tables have actual ones at the positions of the
nodes that are agreed on, there is one placement at each of these nodes, in their order. -/
theorem ofBound_spec {first : String} {rest : List String}
    (hlead : lead = leader first (first :: rest) condition)
    (hmeetable : ∀ c ∈ condition, c.alwaysFalse = false)
    (h : Leaves rule (first :: rest) lead condition rules left) :
    (left lead ≠ [] → agreed (first :: rest) lead condition rules left = [] →
      ∃ e, ofBound rule (first :: rest) condition.toList = .error e ∧ e.kind = .algorithm ∧
        e.message = "Binding tables routed to different shards") ∧
    (∀ e, ofBound rule (first :: rest) condition.toList = .error e →
      e.message = "Binding tables routed to different shards" →
        left lead ≠ [] ∧ agreed (first :: rest) lead condition rules left = []) ∧
    ((left lead = [] ∨ agreed (first :: rest) lead condition rules left ≠ []) →
      (∀ n ∈ agreed (first :: rest) lead condition rules left, ∀ table ∈ first :: rest,
        table ≠ lead → ∃ a, rule.bindingActualTable n.dataSource table lead n.table = .ok a) →
      ∃ r, ofBound rule (first :: rest) condition.toList = .ok r ∧ r.placements.Nodup ∧
        List.Forall₂ (IsAt (first :: rest) lead condition rules left)
          (agreed (first :: rest) lead condition rules left) r.placements) := by
  have hmem : lead ∈ first :: rest := hlead ▸ leader_mem first rest condition
  have hshared := h.sharedNodes_eq hlead
  generalize hnodes : agreed (first :: rest) lead condition rules left = nodes at *
  split at hshared
  · rename_i hnone
    obtain ⟨other, hshared⟩ := hshared
    rw [Bool.and_eq_true, Bool.not_eq_true', List.isEmpty_eq_false_iff, List.isEmpty_iff] at hnone
    rw [ofBound_toList hmeetable, underCondition, hshared]
    refine ⟨fun _ _ => ⟨_, rfl, rfl, rfl⟩, fun _ _ _ => hnone, fun hsome => ?_⟩
    exact (hsome.elim hnone.1 fun hne => hne hnone.2).elim
  · rename_i hsome
    have hreached : left lead ≠ [] → nodes ≠ [] := by
      simpa using hsome
    rw [ofBound_of_sharedNodes hmeetable hshared]
    refine ⟨fun hne hnil => absurd hnil (hreached hne), fun e he hmessage => ?_, fun _ hat => ?_⟩
    · -- what the placements fail with says something else
      obtain ⟨n, hn, hfault⟩ := Outcome.exists_of_mapM_eq_error (Outcome.map_eq_error.1 he)
      rw [h.message_of_placementAt hmem (hnodes ▸ hn) hfault] at hmessage
      exact absurd hmessage (by decide)
    · have hplacements : ∀ n ∈ nodes, ∃ p, placementAt rule (first :: rest) lead n = .ok p ∧
          IsAt (first :: rest) lead condition rules left n p := by
        intro n hn
        obtain ⟨p, hp⟩ := exists_placementAt (hat n hn)
        exact ⟨p, hp, h.isAt_of_mem_agreed hmem (hnodes ▸ hn) hp⟩
      obtain ⟨ps, hps, hall⟩ := Outcome.exists_mapM_eq_ok hplacements
      -- different nodes have different placements, so that none is dropped
      have hnodup : ps.Nodup := by
        refine Lists.nodup_of_forall₂ hall ?_ fun n m p hn hm => hn.node_inj hmem hm
        rw [← hnodes]
        exact (TableRule.nodup_nodesFor (h.apart lead hmem)
          (h.nodes lead hmem (.inl rfl))).filter _
      have hkept : (ofPlacements ps).placements = ps := Lists.eraseDups_of_nodup hnodup
      rw [hps]
      refine ⟨_, rfl, ?_, ?_⟩
      · simp only [hkept]
        exact hnodup
      · simp only [hkept]
        exact hall

/-! ### Orders and their items -/

/-- Tables of two data sources that are spread by users, and there by the numbers of orders. -/
def pairTable (logic : String) : TableRule :=
  ⟨logic, [⟨"ds_0", logic ++ "_0"⟩, ⟨"ds_0", logic ++ "_1"⟩, ⟨"ds_1", logic ++ "_0"⟩,
    ⟨"ds_1", logic ++ "_1"⟩], .standard "user_id" (.mod 2), .standard "order_id" (.mod 2), none⟩

/-- Orders and their items are spread alike, some tables are on every data source, and some data
sources have replicas. -/
def pairConfig (broadcast : List String) (replicas : List ReplicaConfig) : RuleConfig :=
  { dataSources := ["ds_0", "ds_1"]
    tables := ["t_order", "t_item"].map fun logic => {
      logicTable := logic
      nodes := some ("ds_0." ++ logic ++ "_0,ds_0." ++ logic ++ "_1,ds_1." ++ logic ++ "_0,ds_1." ++
        logic ++ "_1")
      databaseStrategy := some (.standard "user_id" "by_two")
      tableStrategy := some (.standard "order_id" "by_two") }
    bindingTables := [["t_order", "t_item"]]
    broadcastTables := broadcast
    algorithms := ⟨[("by_two", { type := "MOD", properties := ⟨[("sharding-count", "2")]⟩ })]⟩
    replicas := replicas }

/-- The rule of orders and their items. -/
def pairRule (broadcast : List String) (replicas : List ReplicaGroup) : Rule :=
  ⟨[("t_order", pairTable "t_order"), ("t_item", pairTable "t_item")], [["t_order", "t_item"]],
    broadcast, ["ds_0", "ds_1"], none, {}, replicas, {}⟩

/-- The first order of any user, and an item of user zero. -/
def orderWithItem : Condition where
  values := [⟨"t_order", "order_id", .oneOf [.int 1], []⟩,
    ⟨"t_item", "user_id", .oneOf [.int 0], []⟩]

/-- Orders are left in the second tables, and items in the first data source. -/
def leftOfPair (logic : String) : List DataNode :=
  if logic = "t_order" then [⟨"ds_0", "t_order_1"⟩, ⟨"ds_1", "t_order_1"⟩]
  else [⟨"ds_0", "t_item_0"⟩, ⟨"ds_0", "t_item_1"⟩]

theorem leaves_orderWithItem :
    Leaves (pairRule [] []) ["t_order", "t_item"] "t_order" (some orderWithItem) pairTable
      leftOfPair := by
  have htables {P : String → Prop} (horder : P "t_order") (hitem : P "t_item") :
      ∀ table ∈ ["t_order", "t_item"], P table := by
    intro table htable
    rcases List.mem_cons.1 htable with rfl | htable
    · exact horder
    · exact List.mem_singleton.1 htable ▸ hitem
  constructor
  · exact htables rfl rfl
  · apply htables <;> (unfold TableRule.NamesApart; decide +kernel)
  · exact htables (fun _ => by decide +kernel) (fun _ => by decide +kernel)

/-- The first order with an item of user zero is looked for in the first data source only, in the
second tables there. -/
theorem ofBound_spec_pair :
    Rule.ofConfig .builtin (pairConfig [] []) = .ok (pairRule [] []) ∧
      ∃ r, ofBound (pairRule [] []) ["t_order", "t_item"] [orderWithItem] = .ok r ∧
        r.placements.Nodup ∧ List.Forall₂
          (IsAt ["t_order", "t_item"] "t_order" (some orderWithItem) pairTable leftOfPair)
          [⟨"ds_0", "t_order_1"⟩] r.placements := by
  have hmeetable : ∀ c ∈ some orderWithItem, c.alwaysFalse = false := by
    intro c hc
    cases hc
    rfl
  have hat : ∀ n ∈ [DataNode.mk "ds_0" "t_order_1"], ∀ table ∈ ["t_order", "t_item"],
      table ≠ "t_order" →
        ∃ a, (pairRule [] []).bindingActualTable n.dataSource table "t_order" n.table = .ok a := by
    intro n hn table htable hne
    cases List.mem_singleton.1 hn
    cases List.mem_singleton.1 ((List.mem_cons.1 htable).resolve_left hne)
    exact ⟨"t_item_1", by decide +kernel⟩
  exact ⟨by decide +kernel, (ofBound_spec (by decide +kernel) hmeetable
    leaves_orderWithItem).2.2 (.inr (List.cons_ne_nil _ _)) hat⟩

end Routing

end ShardedSql
