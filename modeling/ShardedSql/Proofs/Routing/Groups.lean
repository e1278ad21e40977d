/-
**When the groups of a statement split its tables.**

The tables of a statement are taken in their order.  A table that is in no group yet starts one, and
takes along all tables of the statement that are in its first binding group.  Tables that are in a
group already are passed over as starts, but they are not kept from being taken along once more.  So
every table is in some group, but only where tables take each other along alike is it in one group
only: where one binding group shares a table with another, the table may be routed twice, and the
placements of the join map it twice.

Main definitions:

* `ShardedSql.Rule.TakesAlong` — the start of a group takes a table along;
* `ShardedSql.Rule.TakesAlike` — **the tables that a table takes along take each other along**;
* `ShardedSql.Rule.BindsOnce` — no table is in two binding groups;
* `ShardedSql.Routing.StartsApart` — every group has a start that is in no earlier one.

Main results:

* `ShardedSql.Statement.allDiffer_tableNames`, `ShardedSql.Statement.allDiffer_shardedAmong` — the
  tables of a statement have different names;
* `ShardedSql.Routing.startsApart_groups` — what the groups of all tables are;
* `ShardedSql.Routing.perm_flatten_groups` — **tables that take each other along alike are split**;
* `ShardedSql.Routing.exists_order_of_overlap` — others are not, in some order of the tables;
* `ShardedSql.Routing.groups_spec` — the groups of any tables and the placements that map them.
-/

import ShardedSql.Proofs.Routing.Naming

set_option relaxedAutoImplicit false
set_option autoImplicit false

namespace ShardedSql

/-! ### Names of tables -/

namespace Statement

/-- Names that all differ still do when one is added. -/
theorem allDiffer_addName {names : List String} (h : Text.AllDiffer names) (t : TableRef) :
    Text.AllDiffer (addName names t) := by
  rw [addName]
  split
  · exact h
  · rename_i hnew
    refine List.pairwise_append.2 ⟨h, List.pairwise_singleton .., fun a ha b hb => ?_⟩
    rw [List.mem_singleton.1 hb]
    simpa using List.any_eq_false.1 (Bool.eq_false_iff.2 hnew) a ha

/-- **The tables of a statement have different names.** -/
theorem allDiffer_tableNames (s : Statement) : Text.AllDiffer s.tableNames :=
  List.foldlRecOn s.tables addName .nil fun _ h t _ => allDiffer_addName h t

theorem allDiffer_shardedAmong (rule : Rule) (s : Statement) :
    Text.AllDiffer (rule.shardedAmong s.tableNames) := s.allDiffer_tableNames.filter _

end Statement

namespace Rule

variable {rule : Rule} {tables : List String} {a b c : String}

/-! ### Tables that are taken along -/

/-- A table that starts a group takes along itself, and the tables of its first binding group. -/
def TakesAlong (rule : Rule) (a b : String) : Prop :=
  b = a ∨ ∃ g ∈ rule.bindingGroup? a, Text.lowercase b ∈ g

instance (rule : Rule) (a b : String) : Decidable (rule.TakesAlong a b) :=
  inferInstanceAs (Decidable (_ ∨ _))

/-- The tables that a table takes along take each other along. -/
def TakesAlike (rule : Rule) (tables : List String) : Prop :=
  ∀ a ∈ tables, ∀ b ∈ tables, ∀ c ∈ tables,
    rule.TakesAlong a b → rule.TakesAlong a c → rule.TakesAlong b c

/-- No table is in two binding groups. -/
def BindsOnce (rule : Rule) (tables : List String) : Prop :=
  ∀ t ∈ tables, ∀ g ∈ rule.bindingGroups, ∀ g' ∈ rule.bindingGroups,
    Text.lowercase t ∈ g → Text.lowercase t ∈ g' → g = g'

theorem TakesAlong.refl (rule : Rule) (a : String) : rule.TakesAlong a a := .inl rfl

theorem mem_of_bindingGroup? {g : List String} (h : rule.bindingGroup? a = some g) :
    g ∈ rule.bindingGroups ∧ Text.lowercase a ∈ g :=
  ⟨List.mem_of_find?_eq_some h, by simpa using List.find?_some h⟩

/-- The first binding group of a table is the only one. -/
theorem BindsOnce.bindingGroup?_eq (h : rule.BindsOnce tables) (ha : a ∈ tables) {g : List String}
    (hg : g ∈ rule.bindingGroups) (hag : Text.lowercase a ∈ g) : rule.bindingGroup? a = some g := by
  obtain ⟨g', hfirst⟩ : ∃ g', rule.bindingGroup? a = some g' :=
    Option.isSome_iff_exists.1 (List.find?_isSome.2 ⟨g, hg, by simpa using hag⟩)
  obtain ⟨hg', hag'⟩ := mem_of_bindingGroup? hfirst
  rw [hfirst, h a ha g hg g' hg' hag hag']

/-- **Tables that are in one binding group each take each other along.** -/
theorem BindsOnce.takesAlike (h : rule.BindsOnce tables) : rule.TakesAlike tables := by
  intro a _ b hb c _ hab hac
  rcases hab with rfl | ⟨g, hg, hbg⟩
  · exact hac
  · obtain ⟨hgroup, hag⟩ := mem_of_bindingGroup? hg
    refine .inr ⟨g, h.bindingGroup?_eq hb hgroup hbg, ?_⟩
    rcases hac with rfl | ⟨g', hg', hcg⟩
    · exact hag
    · exact Option.mem_unique hg' hg ▸ hcg

/-- The order of the tables does not matter. -/
theorem TakesAlike.perm (h : rule.TakesAlike tables) {order : List String}
    (horder : order.Perm tables) : rule.TakesAlike order :=
  fun a ha b hb c hc => h a (horder.mem_iff.1 ha) b (horder.mem_iff.1 hb) c (horder.mem_iff.1 hc)

end Rule

namespace Routing

variable {rule : Rule} {tables : List String} {a b : String}

/-! ### One group -/

theorem mem_groupOf_iff (ha : a ∈ tables) :
    b ∈ groupOf rule tables a ↔ b ∈ tables ∧ rule.TakesAlong a b := by
  rw [groupOf]
  cases hgroup : rule.bindingGroup? a with
  | none =>
      rw [List.mem_singleton]
      constructor
      · rintro rfl
        exact ⟨ha, .inl rfl⟩
      · rintro ⟨-, hab | ⟨g, hg, -⟩⟩
        · exact hab
        · rw [hgroup] at hg
          cases hg
  | some g =>
      simp only [List.mem_filter, List.contains_iff_mem]
      refine and_congr_right fun _ => ⟨fun hb => .inr ⟨g, hgroup, hb⟩, ?_⟩
      rintro (rfl | ⟨g', hg', hb⟩)
      · exact (Rule.mem_of_bindingGroup? hgroup).2
      · exact Option.mem_unique hg' hgroup ▸ hb

/-- A group keeps the order of the statement. -/
theorem groupOf_sublist (ha : a ∈ tables) : (groupOf rule tables a).Sublist tables := by
  rw [groupOf]
  split
  · exact List.filter_sublist
  · exact List.singleton_sublist.2 ha

/-- A table is found in a group when it is in it. -/
theorem memName_groupOf_iff (hdiffer : Text.AllDiffer tables)
    (ha : a ∈ tables) (hb : b ∈ tables) :
    Text.memName b (groupOf rule tables a) = true ↔ b ∈ groupOf rule tables a := by
  constructor
  · intro hmem
    obtain ⟨c, hc, hbc⟩ := List.any_eq_true.1 hmem
    exact hdiffer.eq_of_sameName hb ((groupOf_sublist ha).subset hc) hbc ▸ hc
  · exact fun hmem => List.any_eq_true.2 ⟨b, hmem, Text.sameName_refl b⟩

/-! ### Group by group -/

/-- Groups have starts among some tables, and none has its start in an earlier one. -/
structure StartsApart (rule : Rule) (tables : List String) (found : List (List String)) : Prop where
  start : ∀ group ∈ found, ∃ a ∈ tables, group = groupOf rule tables a
  apart : found.Pairwise fun earlier later =>
    ∃ a ∈ tables, later = groupOf rule tables a ∧ a ∉ earlier

/-- **A table that is in no group yet adds one with a start of its own**, and one that is in some
group adds none. -/
theorem StartsApart.addGroup {found : List (List String)} (h : StartsApart rule tables found)
    (ha : a ∈ tables) : StartsApart rule tables (addGroup rule tables found a) := by
  rw [Routing.addGroup]
  split
  · exact h
  · rename_i hnew
    constructor
    · intro group hgroup
      rcases List.mem_append.1 hgroup with hgroup | hgroup
      · exact h.start group hgroup
      · exact ⟨a, ha, List.mem_singleton.1 hgroup⟩
    · refine List.pairwise_append.2 ⟨h.apart, List.pairwise_singleton .., fun group hgroup => ?_⟩
      refine List.forall_mem_singleton.2 ⟨a, ha, rfl, fun hmem => hnew ?_⟩
      exact List.any_eq_true.2
        ⟨group, hgroup, List.any_eq_true.2 ⟨a, hmem, Text.sameName_refl a⟩⟩

/-- **The groups of a statement have starts that are in no earlier ones.** -/
theorem startsApart_groups (rule : Rule) (tables : List String) :
    StartsApart rule tables (groups rule tables) :=
  List.foldlRecOn tables (Routing.addGroup rule tables)
    ⟨fun group hgroup => (by cases hgroup), .nil⟩ fun _ h _ ha => h.addGroup ha

/-- Groups that have been found stay, before all others. -/
theorem prefix_foldl_addGroup (l : List String) (found : List (List String)) :
    found <+: l.foldl (addGroup rule tables) found := by
  induction l generalizing found with
  | nil => exact List.prefix_refl found
  | cons a l ih =>
      refine List.IsPrefix.trans ?_ (ih _)
      rw [addGroup]
      split
      · exact List.prefix_refl found
      · exact List.prefix_append ..

theorem sublist_of_mem_groups {group : List String} (h : group ∈ groups rule tables) :
    group.Sublist tables := by
  obtain ⟨a, ha, rfl⟩ := (startsApart_groups rule tables).start group h
  exact groupOf_sublist ha

/-- Every table is in some group. -/
theorem exists_group_of_mem (hdiffer : Text.AllDiffer tables)
    (ha : a ∈ tables) : ∃ group ∈ groups rule tables, a ∈ group := by
  obtain ⟨group, hgroup, hmem⟩ := exists_mem_groups rule ha
  obtain ⟨c, hc, rfl⟩ := (startsApart_groups rule tables).start group hgroup
  exact ⟨_, hgroup, (memName_groupOf_iff hdiffer hc ha).1 hmem⟩

/-! ### Groups that split the tables -/

/-- Groups of tables that take each other along alike have no table in common. -/
theorem pairwise_disjoint_groups (h : rule.TakesAlike tables) :
    (groups rule tables).Pairwise List.Disjoint := by
  have hstarts := startsApart_groups rule tables
  refine hstarts.apart.imp_of_mem fun {earlier later} hearlier _ hapart c hc hc' => ?_
  obtain ⟨a, ha, rfl⟩ := hstarts.start earlier hearlier
  obtain ⟨b, hb, rfl, hba⟩ := hapart
  rw [mem_groupOf_iff ha] at hc hba
  rw [mem_groupOf_iff hb] at hc'
  -- the start of the later group is taken along by the common table, and so by the earlier start
  have hcb := h b hb c hc.1 b hb hc'.2 (.refl rule b)
  have hca := h a ha c hc.1 a ha hc.2 (.refl rule a)
  exact hba ⟨hb, h c hc.1 a ha b hb hca hcb⟩

/-- **Tables that take each other along alike are split into groups.** -/
theorem perm_flatten_groups (hdiffer : Text.AllDiffer tables)
    (h : rule.TakesAlike tables) : (groups rule tables).flatten.Perm tables := by
  have hnodup := hdiffer.nodup
  have hgroups : (groups rule tables).flatten.Nodup :=
    List.nodup_flatten.2 ⟨fun group hgroup => (sublist_of_mem_groups hgroup).nodup hnodup,
      pairwise_disjoint_groups h⟩
  refine (List.perm_ext_iff_of_nodup hgroups hnodup).2 fun a => ?_
  rw [List.mem_flatten]
  constructor
  · rintro ⟨group, hgroup, ha⟩
    exact (sublist_of_mem_groups hgroup).subset ha
  · exact exists_group_of_mem hdiffer

/-- Two tables in front start a group each, when the first does not take the second along. -/
theorem prefix_groups_cons_cons {rest : List String} (hdiffer : Text.AllDiffer (a :: b :: rest))
    (hab : ¬ rule.TakesAlong a b) :
    [groupOf rule (a :: b :: rest) a, groupOf rule (a :: b :: rest) b] <+:
      groups rule (a :: b :: rest) := by
  have ha : a ∈ a :: b :: rest := List.mem_cons_self ..
  have hb : b ∈ a :: b :: rest := List.mem_cons_of_mem a (List.mem_cons_self ..)
  have hnew : ¬ Text.memName b (groupOf rule (a :: b :: rest) a) = true := by
    rw [memName_groupOf_iff hdiffer ha hb, mem_groupOf_iff ha]
    exact fun h => hab h.2
  have htwo : addGroup rule (a :: b :: rest) (addGroup rule (a :: b :: rest) [] a) b =
      [groupOf rule (a :: b :: rest) a, groupOf rule (a :: b :: rest) b] := by
    simp [addGroup, hnew]
  rw [← htwo]
  exact prefix_foldl_addGroup rest _

/-- **Where a table does not take a second one along, but both take a third one along, the tables
are not split in every order**: with the two in front, the third is in the groups of both. -/
theorem exists_order_of_overlap (hdiffer : Text.AllDiffer tables)
    {c : String} (ha : a ∈ tables) (hb : b ∈ tables) (hc : c ∈ tables)
    (hab : ¬ rule.TakesAlong a b) (hac : rule.TakesAlong a c) (hbc : rule.TakesAlong b c) :
    ∃ order, order.Perm tables ∧ ¬ (groups rule order).flatten.Perm order := by
  have hne : b ≠ a := fun heq => hab (.inl heq)
  have horder : (a :: b :: (tables.erase a).erase b).Perm tables :=
    ((List.perm_cons_erase ((List.mem_erase_of_ne hne).2 hb)).symm.cons a).trans
      (List.perm_cons_erase ha).symm
  refine ⟨_, horder, fun hperm => ?_⟩
  have hdiffer := hdiffer.perm horder
  have hapart := (List.nodup_flatten.1 (hperm.nodup_iff.2 hdiffer.nodup)).2
  have hboth := List.pairwise_pair.1
    (hapart.sublist (prefix_groups_cons_cons hdiffer hab).sublist)
  have hc' := horder.mem_iff.2 hc
  refine hboth ((mem_groupOf_iff ?_).2 ⟨hc', hac⟩) ((mem_groupOf_iff ?_).2 ⟨hc', hbc⟩)
  · exact List.mem_cons_self ..
  · exact List.mem_cons_of_mem a (List.mem_cons_self ..)

/-- Where tables are split in every order they take each other along alike. -/
theorem takesAlike_of_orders (hdiffer : Text.AllDiffer tables)
    (h : ∀ order, order.Perm tables → (groups rule order).flatten.Perm order) :
    rule.TakesAlike tables := by
  have hapart {x y z : String} (hx : x ∈ tables) (hy : y ∈ tables) (hz : z ∈ tables)
      (hxz : rule.TakesAlong x z) (hyz : rule.TakesAlong y z) : rule.TakesAlong x y := by
    by_contra hxy
    obtain ⟨order, horder, hperm⟩ := exists_order_of_overlap hdiffer hx hy hz hxy hxz hyz
    exact hperm (h order horder)
  intro a ha b hb c hc hab hac
  have hba := hapart hb ha hb (.refl rule b) hab
  have hca := hapart hc ha hc (.refl rule c) hac
  exact hapart hb hc ha hba hca

/-! ### What is mapped -/

/-- **The placements of a join map the tables of all groups**, one group after another. -/
theorem logics_of_ofJoined {conditions : List Condition} {r : Routing}
    (h : ofJoined rule tables conditions = .ok r) {p : Placement} (hp : p ∈ r.placements) :
    p.tables.map (·.logic) = (groups rule tables).flatten := by
  obtain ⟨ways, hways, htables⟩ := exists_way_of_ofJoined h hp
  rw [htables]
  clear htables
  generalize groups rule tables = found at hways ⊢
  induction hways with
  | nil => rfl
  | cons hq _ ih =>
      obtain ⟨⟨lead, t, n, -, -, hplacement⟩, -⟩ := hq
      rw [List.flatMap_cons, List.map_append, ih, logics_of_placementAt hplacement,
        List.flatten_cons]

/-- **The groups of tables with different names.**  Every group is a part of the tables, every table
is in some group, and the placements of the join map the tables of one group after the other.  The
groups split the tables in every order of them exactly when the tables that a table takes along take
each other along.  So it is where no table is in two binding groups, and then every placement maps
every table exactly once. -/
theorem groups_spec (hdiffer : Text.AllDiffer tables) :
    (∀ group ∈ groups rule tables, group.Sublist tables) ∧
    (∀ a ∈ tables, ∃ group ∈ groups rule tables, a ∈ group) ∧
    (∀ conditions r, ofJoined rule tables conditions = .ok r → ∀ p ∈ r.placements,
      p.tables.map (·.logic) = (groups rule tables).flatten) ∧
    ((∀ order, order.Perm tables → (groups rule order).flatten.Perm order) ↔
      rule.TakesAlike tables) ∧
    (rule.BindsOnce tables → (groups rule tables).flatten.Perm tables ∧
      ∀ conditions r, ofJoined rule tables conditions = .ok r → ∀ p ∈ r.placements,
        (p.tables.map (·.logic)).Perm tables) := by
  have hlogics (conditions : List Condition) (r : Routing)
      (h : ofJoined rule tables conditions = .ok r) (p : Placement) (hp : p ∈ r.placements) :
      p.tables.map (·.logic) = (groups rule tables).flatten := logics_of_ofJoined h hp
  refine ⟨fun group => sublist_of_mem_groups, fun a => exists_group_of_mem hdiffer, hlogics,
    ⟨takesAlike_of_orders hdiffer, fun h order horder => ?_⟩, fun honce => ?_⟩
  · exact perm_flatten_groups (hdiffer.perm horder) (h.perm horder)
  · have hperm := perm_flatten_groups hdiffer honce.takesAlike
    exact ⟨hperm, fun conditions r h p hp => hlogics conditions r h p hp ▸ hperm⟩

/-! ### Orders, items and users -/

/-- Three tables that are in one place each, of which some are bound. -/
def shopConfig (bindings : List (List String)) : RuleConfig :=
  { dataSources := ["ds_0"]
    tables := ["t_order", "t_item", "t_user"].map fun logic => {
      logicTable := logic
      nodes := some ("ds_0." ++ logic) }
    bindingTables := bindings }

/-- The rule of orders, items and users. -/
def shopRule (bindings : List (List String)) : Rule :=
  ⟨["t_order", "t_item", "t_user"].map fun logic =>
      (logic, ⟨logic, [⟨"ds_0", logic⟩], .none, .none, none⟩),
    bindings, [], ["ds_0"], none, {}, [], {}⟩

/-- Orders and items are bound, and users are not: they are two groups, and all of them are mapped
once. -/
theorem groups_spec_shop :
    Rule.ofConfig .builtin (shopConfig [["t_order", "t_item"]]) =
        .ok (shopRule [["t_order", "t_item"]]) ∧
      Text.AllDiffer ["t_item", "t_user", "t_order"] ∧
      (shopRule [["t_order", "t_item"]]).BindsOnce ["t_item", "t_user", "t_order"] ∧
      (groups (shopRule [["t_order", "t_item"]])
        ["t_item", "t_user", "t_order"]).flatten.Perm ["t_item", "t_user", "t_order"] ∧
      ∃ r p, ofJoined (shopRule [["t_order", "t_item"]]) ["t_item", "t_user", "t_order"] [] =
          .ok r ∧ p ∈ r.placements ∧
        (p.tables.map (·.logic)).Perm ["t_item", "t_user", "t_order"] := by
  have hdiffer : Text.AllDiffer ["t_item", "t_user", "t_order"] := by decide +kernel
  have honce : (shopRule [["t_order", "t_item"]]).BindsOnce ["t_item", "t_user", "t_order"] := by
    unfold Rule.BindsOnce
    decide +kernel
  obtain ⟨-, -, -, -, hsplit⟩ := @groups_spec (shopRule [["t_order", "t_item"]]) _ hdiffer
  obtain ⟨hperm, hmapped⟩ := hsplit honce
  exact ⟨by decide +kernel, hdiffer, honce, hperm, _, _, rfl, List.mem_singleton.2 rfl,
    hmapped [] _ rfl _ (List.mem_singleton.2 rfl)⟩

/-- Items are bound with orders, and with users too: of items and users, items are in both groups,
and every placement maps them twice. -/
theorem groups_overlap :
    Rule.ofConfig .builtin (shopConfig [["t_order", "t_item"], ["t_item", "t_user"]]) =
        .ok (shopRule [["t_order", "t_item"], ["t_item", "t_user"]]) ∧
      Text.AllDiffer ["t_item", "t_user"] ∧
      groups (shopRule [["t_order", "t_item"], ["t_item", "t_user"]]) ["t_item", "t_user"] =
        [["t_item"], ["t_item", "t_user"]] ∧
      ¬ (groups (shopRule [["t_order", "t_item"], ["t_item", "t_user"]])
        ["t_item", "t_user"]).flatten.Perm ["t_item", "t_user"] ∧
      ofJoined (shopRule [["t_order", "t_item"], ["t_item", "t_user"]]) ["t_item", "t_user"] [] =
        .ok { placements := [⟨.same "ds_0",
          [.same "t_item", .same "t_item", .same "t_user"]⟩] } := by
  refine ⟨by decide +kernel, by decide +kernel, by decide +kernel, ?_, by decide +kernel⟩
  decide +kernel

end Routing

end ShardedSql
