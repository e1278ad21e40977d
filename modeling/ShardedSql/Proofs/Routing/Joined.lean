/-
**The join of several routings is made of all ways to take one placement of each.**

Tables that are not spread alike are routed group by group.  A statement on all of them runs in the
data sources that every group reaches, and in each of these once for every way to take a placement
of each group there.  The join builds these ways up group by group and drops equal placements at the
end.  Nothing is lost by that: where the placements of a group map equally many tables, the tables
of a joined placement tell which placements it was made of.

Main definitions:

* `ShardedSql.Routing.Reaches` — a routing leads to a data source;
* `ShardedSql.Routing.IsUniform` — different placements in plain data sources, with equally many
  tables;
* `ShardedSql.Routing.combinations` — **the ways to take a placement of each group in a data
  source**;
* `ShardedSql.Placement.together` — the placement of all tables of such a way.

Main results:

* `ShardedSql.Routing.joinIn_eq` — the join in a data source is made of all ways;
* `ShardedSql.Routing.exists_way_of_join` — every placement of a join, of whatever routings, is made
  of one placement of each;
* `ShardedSql.Routing.pairwise_sharedSources`, `ShardedSql.Routing.mem_sharedSources` — the data
  sources that are shared, in the order in which the first group reaches them;
* `ShardedSql.Routing.nodup_joined` — **different ways have different placements**;
* `ShardedSql.Routing.join_spec` — what the join of any routings is.
-/

import ShardedSql.Proofs.Lists.Choices
import ShardedSql.Routing.Join

set_option relaxedAutoImplicit false
set_option autoImplicit false

namespace ShardedSql

namespace Placement

theorem withTables_withTables (p : Placement) (ts us : List Renaming) :
    (p.withTables ts).withTables us = p.withTables (ts ++ us) := by
  simp [withTables, List.append_assoc]

theorem withTables_nil (p : Placement) : p.withTables [] = p := by simp [withTables]

/-- The placement in a data source of the tables of several placements. -/
def together (source : String) (ps : List Placement) : Placement :=
  ⟨Renaming.same source, ps.flatMap (·.tables)⟩

end Placement

namespace Routing

variable {source : String} {first r : Routing} {others all : List Routing}

/-- The routing leads to a data source. -/
def Reaches (r : Routing) (source : String) : Prop := ∃ p ∈ r.placements, p.source.logic = source

/-- The placements are different, they are in data sources that stand for themselves, and they map
equally many tables. -/
structure IsUniform (r : Routing) : Prop where
  nodup : r.placements.Nodup
  plain : ∀ p ∈ r.placements, p.source = Renaming.same p.source.logic
  width : ∀ p ∈ r.placements, ∀ q ∈ r.placements, p.tables.length = q.tables.length

/-- All ways to take a placement of each routing in a data source. -/
def combinations (all : List Routing) (source : String) : List (List Placement) :=
  Lists.choices (all.map fun r => r.placementsIn source)

theorem combinations_cons (r : Routing) (others : List Routing) (source : String) :
    combinations (r :: others) source =
      (r.placementsIn source).flatMap fun p => (combinations others source).map (p :: ·) := rfl

theorem mem_placementsIn {p : Placement} :
    p ∈ r.placementsIn source ↔ p ∈ r.placements ∧ p.source.logic = source := by
  simp [placementsIn]

theorem IsUniform.source_eq (h : r.IsUniform) {p : Placement} (hp : p ∈ r.placementsIn source) :
    p.source = Renaming.same source := by
  obtain ⟨hp, hsource⟩ := mem_placementsIn.1 hp
  rw [h.plain p hp, hsource]

/-! ### Ways in one data source -/

theorem mem_combinations {c : List Placement} : c ∈ combinations all source ↔
    List.Forall₂ (fun p (r : Routing) => p ∈ r.placements ∧ p.source.logic = source) c all := by
  rw [combinations, Lists.mem_choices, List.forall₂_map_right_iff]
  simp only [mem_placementsIn]

theorem length_combinations (all : List Routing) (source : String) :
    (combinations all source).length =
      (all.map fun r => (r.placementsIn source).length).foldr (· * ·) 1 := by
  rw [combinations, Lists.length_choices, List.map_map]
  rfl

theorem pairwise_combinations (h : ∀ r ∈ all, r.IsUniform) (source : String) :
    (combinations all source).Pairwise
      (Lists.Precedes (all.map fun r => r.placementsIn source)) := by
  refine Lists.pairwise_choices fun ps hps => ?_
  obtain ⟨r, hr, rfl⟩ := List.mem_map.1 hps
  exact (h r hr).nodup.filter _

theorem nodup_combinations (h : ∀ r ∈ all, r.IsUniform) (source : String) :
    (combinations all source).Nodup := by
  refine Lists.nodup_choices fun ps hps => ?_
  obtain ⟨r, hr, rfl⟩ := List.mem_map.1 hps
  exact (h r hr).nodup.filter _

/-- Taking the routings in one by one takes all ways to take a placement of each. -/
theorem foldl_product (others : List Routing) (source : String) (left : List Placement) :
    others.foldl (fun left r => product left (r.placementsIn source)) left =
      left.flatMap fun l => (combinations others source).map fun c =>
        l.withTables (c.flatMap (·.tables)) := by
  induction others generalizing left with
  | nil => simp [combinations, Lists.choices, Placement.withTables_nil]
  | cons r others ih =>
      rw [List.foldl_cons, ih, product, List.flatMap_assoc]
      refine List.flatMap_congr fun l _ => ?_
      rw [combinations_cons, List.flatMap_map, List.map_flatMap]
      refine List.flatMap_congr fun p _ => ?_
      rw [List.map_map]
      refine List.map_congr_left fun c _ => ?_
      rw [Placement.withTables_withTables, Function.comp_apply, List.flatMap_cons]

/-- **Every placement of a join is made of one placement of each routing in its data source.** -/
theorem exists_way_of_join {routings : List Routing} {tables : List String}
    (h : join routings tables = .ok r) {p : Placement} (hp : p ∈ r.placements) :
    ∃ c ∈ combinations routings p.source.logic, p.tables = c.flatMap (·.tables) := by
  cases routings with
  | nil =>
      cases h
      cases hp
  | cons first others =>
      rw [join] at h
      split at h
      · cases h
        cases hp
      · split at h
        · cases h
        · cases h
          obtain ⟨source, -, hp⟩ := List.mem_flatMap.1 ((mem_ofPlacements ..).1 hp)
          rw [joinIn, foldl_product] at hp
          obtain ⟨l, hl, hp⟩ := List.mem_flatMap.1 hp
          obtain ⟨c, hc, rfl⟩ := List.mem_map.1 hp
          have hsource : l.source.logic = source := (mem_placementsIn.1 hl).2
          refine ⟨l :: c, ?_, rfl⟩
          rw [Placement.withTables, hsource, combinations_cons]
          exact List.mem_flatMap.2 ⟨l, hl, List.mem_map.2 ⟨c, hc, rfl⟩⟩

/-- **The join in a data source is made of all ways to take a placement of each routing there.** -/
theorem joinIn_eq (h : first.IsUniform) (source : String) (others : List Routing) :
    joinIn source first others =
      (combinations (first :: others) source).map (Placement.together source) := by
  rw [joinIn, foldl_product, combinations_cons, List.map_flatMap]
  refine List.flatMap_congr fun p hp => ?_
  rw [List.map_map]
  refine List.map_congr_left fun c _ => ?_
  rw [Function.comp_apply, Placement.together, List.flatMap_cons, Placement.withTables,
    h.source_eq hp]

/-- **A joined placement tells which placements it was made of.** -/
theorem together_injective (h : ∀ r ∈ all, r.IsUniform) {c d : List Placement}
    (hc : c ∈ combinations all source) (hd : d ∈ combinations all source)
    (heq : Placement.together source c = Placement.together source d) : c = d := by
  rw [combinations, Lists.mem_choices, List.forall₂_map_right_iff] at hc hd
  have htables : c.flatMap (·.tables) = d.flatMap (·.tables) := congrArg Placement.tables heq
  clear heq
  induction hc generalizing d with
  | nil =>
      cases hd
      rfl
  | @cons p r c all hp hc ih =>
      cases hd with
      | @cons q _ d _ hq hd =>
          obtain ⟨hr, hall⟩ := List.forall_mem_cons.1 h
          have hwidth := hr.width p (mem_placementsIn.1 hp).1 q (mem_placementsIn.1 hq).1
          rw [List.flatMap_cons, List.flatMap_cons] at htables
          obtain ⟨hhead, htail⟩ := List.append_inj htables hwidth
          have hpq : p = q := by
            rw [show p = ⟨p.source, p.tables⟩ from rfl, show q = ⟨q.source, q.tables⟩ from rfl,
              hhead, hr.source_eq hp, hr.source_eq hq]
          rw [hpq, ih hall hd htail]

/-! ### Shared data sources -/

theorem mem_sharedSources {s : String} (hfirst : first ∈ all) :
    s ∈ sharedSources first all ↔ ∀ r ∈ all, r.Reaches s := by
  rw [sharedSources, List.mem_eraseDups, List.mem_filter, List.mem_map, List.all_eq_true]
  simp only [List.any_eq_true, decide_eq_true_eq]
  exact ⟨And.right, fun h => ⟨h first hfirst, h⟩⟩

/-- The shared data sources stand in the order in which the first routing reaches them. -/
theorem pairwise_sharedSources (first : Routing) (all : List Routing) :
    (sharedSources first all).Pairwise fun s t =>
      (first.placements.map (·.source.logic)).idxOf s <
        (first.placements.map (·.source.logic)).idxOf t :=
  Lists.pairwise_idxOf_eraseDups_filter ..

/-! ### Joins -/

/-- **Different ways, in the same data source or not, have different placements.** -/
theorem nodup_joined (h : ∀ r ∈ all, r.IsUniform) {sources : List String}
    (hsources : sources.Nodup) :
    (sources.flatMap fun s => (combinations all s).map (Placement.together s)).Nodup := by
  rw [List.nodup_flatMap]
  constructor
  · intro s _
    exact (nodup_combinations h s).map_on fun c hc d hd => together_injective h hc hd
  · refine hsources.imp fun {s t} hst p hs ht => hst ?_
    obtain ⟨c, -, rfl⟩ := List.mem_map.1 hs
    obtain ⟨d, -, heq⟩ := List.mem_map.1 ht
    exact (congrArg (·.source.logic) heq).symm

theorem join_of_shared (h : ∀ r ∈ first :: others, r.IsUniform) (tables : List String)
    (hshared : ∃ s, ∀ r ∈ first :: others, r.Reaches s) :
    join (first :: others) tables = .ok
      { placements := (sharedSources first (first :: others)).flatMap fun s =>
          (combinations (first :: others) s).map (Placement.together s) } := by
  obtain ⟨s, hs⟩ := hshared
  have hmem := (mem_sharedSources (List.mem_cons_self ..)).2 hs
  have hreached : (first :: others).any (fun r => r.placements.isEmpty) = false := by
    refine List.any_eq_false.2 fun r hr => ?_
    obtain ⟨p, hp, -⟩ := hs r hr
    simpa using List.ne_nil_of_mem hp
  rw [join, hreached, if_neg Bool.false_ne_true]
  have hsources : (sharedSources first (first :: others)).Nodup := Lists.nodup_eraseDups _
  cases hall : sharedSources first (first :: others) with
  | nil =>
      rw [hall] at hmem
      cases hmem
  | cons source rest =>
      rw [hall] at hsources
      simp only [joinIn_eq (h first (List.mem_cons_self ..))]
      rw [ofPlacements, Lists.eraseDups_of_nodup (nodup_joined h hsources)]

/-- Where every routing leads somewhere but not all to one data source, the join is refused. -/
theorem join_of_apart (tables : List String) (hreached : ∀ r ∈ first :: others, r.placements ≠ [])
    (hapart : ¬ ∃ s, ∀ r ∈ first :: others, r.Reaches s) :
    join (first :: others) tables = .error ((Fault.unsupported
      "Cannot join sharded tables without a common data source").note "tables"
        (", ".intercalate tables)) := by
  have hany : (first :: others).any (fun r => r.placements.isEmpty) = false :=
    List.any_eq_false.2 fun r hr => by simpa using hreached r hr
  have hnone : sharedSources first (first :: others) = [] := by
    refine List.eq_nil_iff_forall_not_mem.2 fun s hs => hapart ⟨s, ?_⟩
    exact (mem_sharedSources (List.mem_cons_self ..)).1 hs
  rw [join, hany, if_neg Bool.false_ne_true, hnone]

/-- **The join of routings with different placements in plain data sources, which map equally many
tables in each routing.**  It leads nowhere if one of them does, and it is refused if no data source
is reached by all of them.  Otherwise it has, for each data source that all of them reach, in the
order in which the first one does, every way to take a placement of each routing there.  The ways
are in order, each is there once, and it maps the tables of all its placements, so that there are as
many placements as the products of the numbers there add up to. -/
theorem join_spec (h : ∀ r ∈ first :: others, r.IsUniform) (tables : List String) :
    ((∃ r ∈ first :: others, r.placements = []) →
      join (first :: others) tables = .ok { placements := [] }) ∧
    ((∀ r ∈ first :: others, r.placements ≠ []) →
      (¬ ∃ s, ∀ r ∈ first :: others, r.Reaches s) →
        ∃ e, join (first :: others) tables = .error e ∧ e.kind = .unsupported) ∧
    ((∃ s, ∀ r ∈ first :: others, r.Reaches s) →
      ∃ (sources : List String) (r : Routing), join (first :: others) tables = .ok r ∧
        (∀ s, s ∈ sources ↔ ∀ r ∈ first :: others, r.Reaches s) ∧
        (sources.Pairwise fun s t => (first.placements.map (·.source.logic)).idxOf s <
          (first.placements.map (·.source.logic)).idxOf t) ∧
        (∀ s ∈ sources,
          (∀ c, c ∈ combinations (first :: others) s ↔ List.Forall₂ (fun p (r : Routing) =>
            p ∈ r.placements ∧ p.source.logic = s) c (first :: others)) ∧
          (combinations (first :: others) s).Pairwise
            (Lists.Precedes ((first :: others).map fun r => r.placementsIn s))) ∧
        r.placements = (sources.flatMap fun s =>
          (combinations (first :: others) s).map (Placement.together s)) ∧
        r.placements.Nodup ∧
        r.placements.length = (sources.map fun s => ((first :: others).map fun r =>
          (r.placementsIn s).length).foldr (· * ·) 1).foldr (· + ·) 0) := by
  refine ⟨fun ⟨r, hr, hnowhere⟩ => ?_, fun hreached hapart => ?_, fun hshared => ?_⟩
  · exact join_of_nowhere tables (List.any_eq_true.2 ⟨r, hr, List.isEmpty_iff.2 hnowhere⟩)
  · exact ⟨_, join_of_apart tables hreached hapart, rfl⟩
  · refine ⟨_, _, join_of_shared h tables hshared,
      fun s => mem_sharedSources (List.mem_cons_self ..), pairwise_sharedSources .., fun s _ =>
        ⟨fun c => mem_combinations, pairwise_combinations h s⟩, rfl,
      nodup_joined h (Lists.nodup_eraseDups _), ?_⟩
    rw [List.length_flatMap, List.sum_eq_foldr]
    simp only [List.length_map, length_combinations]

/-! ### Orders, items and users -/

/-- Orders are in both data sources, with two tables in the first. -/
def ordersReached : Routing where
  placements := [⟨.same "ds_1", [⟨"t_order", "t_order_0"⟩, ⟨"t_item", "t_item_0"⟩]⟩,
    ⟨.same "ds_0", [⟨"t_order", "t_order_0"⟩, ⟨"t_item", "t_item_0"⟩]⟩,
    ⟨.same "ds_0", [⟨"t_order", "t_order_1"⟩, ⟨"t_item", "t_item_1"⟩]⟩]

/-- Users are in both data sources, and in one more. -/
def usersReached : Routing where
  placements := [⟨.same "ds_2", [⟨"t_user", "t_user_0"⟩]⟩, ⟨.same "ds_0", [⟨"t_user", "t_user_0"⟩]⟩,
    ⟨.same "ds_0", [⟨"t_user", "t_user_1"⟩]⟩, ⟨.same "ds_1", [⟨"t_user", "t_user_0"⟩]⟩]

/-- Orders with their users are looked for in one placement in the second data source, and in four
in the first. -/
theorem join_spec_users :
    (∀ r ∈ [ordersReached, usersReached], r.IsUniform) ∧
      (∃ s, ∀ r ∈ [ordersReached, usersReached], r.Reaches s) ∧
      ∃ (sources : List String) (r : Routing),
        join [ordersReached, usersReached] ["t_order", "t_item", "t_user"] = .ok r ∧
        (∀ s, s ∈ sources ↔ ∀ r ∈ [ordersReached, usersReached], r.Reaches s) ∧
        r.placements = (sources.flatMap fun s =>
          (combinations [ordersReached, usersReached] s).map (Placement.together s)) ∧
        r.placements.Nodup ∧ r.placements.length = 5 := by
  have huniform : ∀ r ∈ [ordersReached, usersReached], r.IsUniform := by
    refine List.forall_mem_cons.2 ⟨?_, List.forall_mem_singleton.2 ?_⟩ <;>
      exact ⟨by decide +kernel, by decide +kernel, by decide +kernel⟩
  have hshared : ∃ s, ∀ r ∈ [ordersReached, usersReached], r.Reaches s :=
    ⟨"ds_0", by unfold Reaches; decide +kernel⟩
  obtain ⟨sources, r, hr, hsources, -, -, hplacements, hnodup, -⟩ :=
    (join_spec huniform ["t_order", "t_item", "t_user"]).2.2 hshared
  have hfive : (join [ordersReached, usersReached] ["t_order", "t_item", "t_user"]).map
      (·.placements.length) = .ok 5 := by decide +kernel
  rw [hr] at hfive
  exact ⟨huniform, hshared, sources, r, hr, hsources, hplacements, hnodup, Except.ok.inj hfive⟩

end Routing

end ShardedSql
