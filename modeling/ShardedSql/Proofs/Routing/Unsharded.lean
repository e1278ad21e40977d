/-
**Reads of tables that are not spread.**

A table that is not spread has all its rows wherever it is.  A statement that reads such tables
runs in one place, so that no row is read twice.  When the tables are on every data source and the
rows are locked, the statement counts as a write, and it runs once in each data source.

Main definitions:

* `ShardedSql.Routing.IsUnchanged` — at most one placement, where tables keep their names.

Main results:

* `ShardedSql.Routing.ofRows_of_unsharded` — where statements without sharded tables run;
* `ShardedSql.Routing.length_withReplicas` — replicas do not multiply placements;
* `ShardedSql.LogicalSql.route_of_unsharded` — **a read of tables that are not spread runs at most
  once**, unless it locks rows that are on every data source.
-/

import ShardedSql.Proofs.Routing.Where

set_option relaxedAutoImplicit false
set_option autoImplicit false

namespace ShardedSql

variable {rule : Rule}

namespace Routing

variable {tables : List String}

/-! ### Placements -/

/-- There is at most one placement, and there the tables keep their names. -/
def IsUnchanged (tables : List String) (r : Routing) : Prop :=
  ∃ source : Option String, r.placements = source.toList.map (unchanged tables)

theorem IsUnchanged.length_le {r : Routing} (h : r.IsUnchanged tables) :
    r.placements.length ≤ 1 := by
  obtain ⟨source, hsource⟩ := h
  rw [hsource, List.length_map]
  cases source with
  | none => exact Nat.zero_le 1
  | some source => exact Nat.le_refl 1

theorem isUnchanged_anywhere (rule : Rule) (tables : List String) :
    (anywhere rule tables).IsUnchanged tables := by
  refine ⟨rule.dataSources.head?, ?_⟩
  rw [anywhere, ofPlacements]
  cases rule.dataSources.head? <;> rfl

/-- A statement without tables that are spread runs in the default data source, or anywhere. -/
theorem isUnchanged_of_byDefault {r : Routing} (h : byDefault rule tables = .ok r) :
    r.IsUnchanged tables := by
  unfold byDefault at h
  split at h
  · rename_i source _
    cases h
    exact ⟨some source, rfl⟩
  · split at h
    · cases h
    · cases h
      exact isUnchanged_anywhere rule tables

/-- **Where statements on rows without sharded tables run**: everywhere when they write to tables
that are on every data source, and else at most in one place. -/
theorem ofRows_of_unsharded (hnone : rule.shardedAmong tables = []) {readOnly : Bool}
    {conditions : List Condition} {r : Routing}
    (h : ofRows rule readOnly tables conditions = .ok r) :
    if !readOnly && rule.allBroadcast tables then r = everywhere rule tables
    else r.IsUnchanged tables := by
  rw [ofRows, hnone] at h
  cases hbroadcast : rule.allBroadcast tables with
  | false =>
      rw [hbroadcast] at h
      rw [Bool.and_false]
      exact isUnchanged_of_byDefault h
  | true =>
      rw [hbroadcast] at h
      cases readOnly with
      | false => exact (Except.ok.inj h).symm
      | true =>
          cases h
          exact isUnchanged_anywhere rule tables

/-- The placements everywhere are one in each data source. -/
theorem logic_everywhere (rule : Rule) (tables : List String) :
    ((everywhere rule tables).placements.map (·.source.logic)).Nodup ∧
      ∀ source, source ∈ (everywhere rule tables).placements.map (·.source.logic) ↔
        source ∈ rule.dataSources := by
  have hmem {p : Placement} : p ∈ (everywhere rule tables).placements ↔
      ∃ source ∈ rule.dataSources, unchanged tables source = p := by
    rw [everywhere, mem_ofPlacements, List.mem_map]
  constructor
  · refine (Lists.nodup_eraseDups _).map_on fun p hp q hq heq => ?_
    obtain ⟨source, -, rfl⟩ := hmem.1 hp
    obtain ⟨other, -, rfl⟩ := hmem.1 hq
    exact congrArg (unchanged tables) heq
  · intro source
    rw [List.mem_map]
    constructor
    · rintro ⟨p, hp, rfl⟩
      obtain ⟨source, hsource, rfl⟩ := hmem.1 hp
      exact hsource
    · intro hsource
      exact ⟨unchanged tables source, hmem.2 ⟨source, hsource, rfl⟩, rfl⟩

/-! ### Replicas -/

/-- Replicas leave the logical data sources of placements as they are, where there are any. -/
theorem logic_withReplicas {readOnly : Bool} {s s' : Rule.Counters} {r r' : Routing}
    (hne : r.placements ≠ []) (h : (withReplicas rule readOnly r).run s = (r', s')) :
    r'.placements.map (·.source.logic) = r.placements.map (·.source.logic) := by
  have hlogic : List.Forall₂ (· = ·) (r.placements.map (·.source.logic))
      (r'.placements.map (·.source.logic)) := by
    rw [List.forall₂_map_left_iff, List.forall₂_map_right_iff]
    exact ((withReplicas_spec h).2 hne).imp fun p q hpq => hpq.logic.symm
  rw [List.forall₂_eq_eq_eq] at hlogic
  exact hlogic.symm

/-- **Replicas do not multiply placements.** -/
theorem length_withReplicas {readOnly : Bool} {s s' : Rule.Counters} {r r' : Routing}
    (h : (withReplicas rule readOnly r).run s = (r', s')) :
    r'.placements.length ≤ max r.placements.length 1 := by
  by_cases hnone : r.placements = []
  · rcases withReplicas_of_nowhere hnone h with hnone' | ⟨g, p, -, hp, -⟩
    · rw [hnone', List.length_nil]
      exact Nat.zero_le _
    · rw [hp, List.length_singleton]
      exact Nat.le_max_right ..
  · have hlength := congrArg List.length (logic_withReplicas hnone h)
    rw [List.length_map, List.length_map] at hlength
    rw [hlength]
    exact Nat.le_max_left ..

end Routing

/-! ### Statements -/

/-- **A read of tables that are not spread runs at most once.**  When it locks rows of tables that
all are on every data source it runs once in each data source. -/
theorem LogicalSql.route_of_unsharded {sql : LogicalSql} {q : Select}
    (hselect : sql.statement = .select q)
    (hunsharded : ∀ ref ∈ q.tables, rule.isSharded ref.name = false)
    {s s' : Rule.Counters} {r : Routed} (hroute : (sql.route rule).run.run s = (.ok r, s')) :
    (q.lock = false ∨ rule.allBroadcast sql.statement.tableNames = false →
      r.routing.placements.length ≤ 1) ∧
    (q.lock = true → rule.allBroadcast sql.statement.tableNames = true → rule.dataSources ≠ [] →
      (r.routing.placements.map (·.source.logic)).Nodup ∧
        ∀ source, source ∈ r.routing.placements.map (·.source.logic) ↔
          source ∈ rule.dataSources) := by
  obtain ⟨conditions, routing, _, -, hofTables, hreplicated, -⟩ := route_steps hroute
  have htables : sql.statement.tables = q.tables := by rw [hselect]; rfl
  have hreadOnly : sql.statement.isReadOnly = !q.lock := by rw [hselect]; rfl
  have hrows : sql.statement.IsOnRows := by rw [hselect]; trivial
  have hnone : rule.shardedAmong sql.statement.tableNames = [] :=
    Routing.filter_foldl_addName [] (htables ▸ hunsharded)
  obtain ⟨core, hcore, rfl⟩ := Outcome.map_eq_ok.1 hofTables
  rw [Routing.core_of_isOnRows hrows] at hcore
  have hspec := Routing.ofRows_of_unsharded hnone hcore
  have hsame : Routing.addUnsharded rule sql.statement.tableNames core = core := by
    rw [Routing.addUnsharded, hnone]
    rfl
  rw [hsame] at hreplicated
  rw [hreadOnly, Bool.not_not] at hspec
  constructor
  · intro hone
    have hread : (q.lock && rule.allBroadcast sql.statement.tableNames) = false := by
      rcases hone with hlock | hbroadcast
      · rw [hlock, Bool.false_and]
      · rw [hbroadcast, Bool.and_false]
    rw [hread] at hspec
    have hlength := Routing.length_withReplicas hreplicated
    rw [Nat.max_eq_right (Routing.IsUnchanged.length_le hspec)] at hlength
    exact hlength
  · intro hlock hbroadcast hsources
    rw [hlock, hbroadcast] at hspec
    have heverywhere : core = Routing.everywhere rule sql.statement.tableNames := hspec
    subst heverywhere
    obtain ⟨hnodup, hmem⟩ := Routing.logic_everywhere rule sql.statement.tableNames
    have hne : (Routing.everywhere rule sql.statement.tableNames).placements ≠ [] := by
      obtain ⟨source, hsource⟩ := List.exists_mem_of_ne_nil _ hsources
      intro hnil
      have hin := (hmem source).2 hsource
      rw [hnil] at hin
      cases hin
    rw [Routing.logic_withReplicas hne hreplicated]
    exact ⟨hnodup, hmem⟩

/-! ### Settings on two data sources -/

/-- A search in a table that is on every data source. -/
def settings (lock : Bool) : LogicalSql where
  text := if lock then "SELECT * FROM t_config FOR UPDATE" else "SELECT * FROM t_config"
  statement := .select { tables := [.ofName "t_config" 14], lock := lock }
  parameters := []

namespace LogicalSql

/-- Settings are read from one of two data sources. -/
theorem route_of_unsharded_settings :
    Rule.ofConfig .builtin (ordersConfig ["t_config"]) = .ok (ordersRule ["t_config"]) ∧
      ∃ r s', ((settings false).route (ordersRule ["t_config"])).run.run
          (ordersRule ["t_config"]).start = (.ok r, s') ∧ r.routing.placements.length ≤ 1 := by
  have hroute : ((settings false).route (ordersRule ["t_config"])).run.run
      (ordersRule ["t_config"]).start =
        (.ok ⟨settings false, ⟨[⟨.same "ds_0", [.same "t_config"]⟩], []⟩, none⟩,
          (ordersRule ["t_config"]).start) := rfl
  have hunsharded : ∀ ref ∈ [TableRef.ofName "t_config" 14],
      (ordersRule ["t_config"]).isSharded ref.name = false := by decide +kernel
  exact ⟨by decide +kernel, _, _, hroute, (route_of_unsharded rfl hunsharded hroute).1 (.inl rfl)⟩

/-- Settings that are locked are read from both data sources. -/
theorem route_of_locked_settings :
    Rule.ofConfig .builtin (ordersConfig ["t_config"]) = .ok (ordersRule ["t_config"]) ∧
      (∀ ref ∈ (settings true).statement.tables,
        (ordersRule ["t_config"]).isSharded ref.name = false) ∧
      ∃ r s', ((settings true).route (ordersRule ["t_config"])).run.run
          (ordersRule ["t_config"]).start = (.ok r, s') ∧ r.routing.placements.length = 2 :=
  ⟨by decide +kernel, by decide +kernel,
    ⟨settings true, ⟨[⟨.same "ds_0", [.same "t_config"]⟩, ⟨.same "ds_1", [.same "t_config"]⟩], []⟩,
      none⟩, (ordersRule ["t_config"]).start, rfl, rfl⟩

end LogicalSql

end ShardedSql
