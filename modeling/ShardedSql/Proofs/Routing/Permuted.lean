/-
**Routing does not depend on the order in which conditions are joined by AND.**

Conditions that say alike of every column lead to the same targets on either axis: a list of values
is asked for its targets one by one, so that only its members count, and a range is the same.  All
that routing does with the nodes of a table after that is the same computation.  So statements whose
conjuncts say the same in another order reach the same places, in the same order, or are both
refused.

A fault names the value that it stopped at, and this may well be another one; so two outcomes are
said to agree when both are failures, whatever their faults.

Main results:

* `ShardedSql.Strategy.targets_agree` — on either axis the targets are the same;
* `ShardedSql.TableRule.nodesFor_agree` — and so are the nodes of a table;
* `ShardedSql.Routing.ofBound_agree`, `ShardedSql.Routing.ofJoined_agree` — and the routing of
  tables that are spread alike, and of others;
* `ShardedSql.LogicalSql.route_reordered` — **statements whose conjuncts say the same in another
  order are routed alike**.
-/

import ShardedSql.Proofs.Condition.Permuted
import ShardedSql.Proofs.Routing.Where

set_option relaxedAutoImplicit false
set_option autoImplicit false

namespace ShardedSql

open Outcome (Agree)

open Condition (KnownAlike)

open ColumnConstraint (knownIn)

/-! ### Targets -/

/-- The targets that an algorithm picks for constraints that are alike have the same names. -/
theorem Strategy.picked_agree (column : String) (algorithm : Algorithm) (available : List String)
    (table : String) {c d : Constraint} (h : c.Alike d) :
    Agree (fun names names' => ∀ name, name ∈ names ↔ name ∈ names')
      (picked column algorithm available table c) (picked column algorithm available table d) := by
  have hrange := h.range
  cases c with
  | oneOf values =>
      cases d with
      | oneOf values' =>
          -- lists of integers with the same integers have the same members
          refine Agree.mapM_of_mem_iff fun v => ⟨fun hv => ?_, fun hv => ?_⟩
          · obtain ⟨n, rfl⟩ := h.left v hv
            exact (h.meets n).1 hv
          · obtain ⟨n, rfl⟩ := h.right v hv
            exact (h.meets n).2 hv
      | within r => cases hrange
  | within r =>
      cases d with
      | oneOf values' => cases hrange
      | within s =>
          cases hrange
          cases picked column algorithm available table (.within r) with
          | error e => exact .failed e e
          | ok names => exact .done fun _ => Iff.rfl

/-- **What is known alike of the column of a strategy leaves the same targets.** -/
theorem Strategy.targets_agree (s : Strategy) (available : List String) (table : String)
    {a b : Option Constraint} (h : KnownAlike a b) :
    Agree Eq (s.targets available table a) (s.targets available table b) := by
  cases s with
  | none => exact .refl _
  | standard column algorithm =>
      cases h with
      | unknown => exact .refl _
      | known h =>
          refine (picked_agree column algorithm available table h).bind fun names names' hsame => ?_
          refine .done (List.filter_congr fun name _ => ?_)
          rw [Bool.eq_iff_iff, List.contains_iff_mem, List.contains_iff_mem, hsame]

namespace TableRule

variable {c d : Condition}

theorem constraint?_alike (t : TableRule) (h : c.Alike d) (column : Option String) :
    KnownAlike (t.constraint? (some c) column) (t.constraint? (some d) column) := by
  cases column with
  | none => exact .unknown
  | some column => exact h.known t.logicTable column

/-- **Conditions that are alike leave the same nodes of a table.** -/
theorem nodesFor_agree (t : TableRule) (h : c.Alike d) :
    Agree Eq (t.nodesFor (some c)) (t.nodesFor (some d)) := by
  refine (t.database.targets_agree _ _ (t.constraint?_alike h _)).bind_eq fun sources => ?_
  refine (Agree.mapM_eq fun source _ => ?_).bind_eq fun nodes => .refl _
  exact (t.table.targets_agree _ _ (t.constraint?_alike h _)).bind_eq fun tables => .refl _

end TableRule

/-! ### Tables that are spread alike -/

namespace Condition

variable {c d : Condition}

/-- Something is known of a table when something is of one of its columns. -/
theorem mentions_iff (table : String) :
    c.mentions table = true ↔ ∃ column, knownIn c.values table column ≠ none := by
  rw [mentions, List.any_eq_true]
  constructor
  · rintro ⟨v, hv, hsame⟩
    refine ⟨v.column, fun hnone => ?_⟩
    rw [knownIn, Option.map_eq_none_iff, List.find?_eq_none] at hnone
    refine hnone v hv ?_
    rw [ColumnConstraint.isAbout, hsame, Text.sameName_refl]
    rfl
  · rintro ⟨column, hknown⟩
    obtain ⟨k, hk⟩ := Option.ne_none_iff_exists'.1 hknown
    obtain ⟨v, hv, -⟩ := Option.map_eq_some_iff.1 hk
    have habout := List.find?_some hv
    rw [ColumnConstraint.isAbout, Bool.and_eq_true] at habout
    exact ⟨v, List.mem_of_find?_eq_some hv, habout.1⟩

/-- Conditions that are alike mention the same tables. -/
theorem Alike.mentions_eq (h : c.Alike d) : c.mentions = d.mentions := by
  funext table
  rw [Bool.eq_iff_iff, mentions_iff, mentions_iff]
  exact exists_congr fun column => not_congr (h.known table column).eq_none_iff

theorem allFalse_eq {cs ds : List Condition} (h : List.Forall₂ Alike cs ds) :
    allFalse cs = allFalse ds := by
  have hall : (cs.all fun c => c.alwaysFalse) = ds.all fun d => d.alwaysFalse := by
    induction h with
    | nil => rfl
    | cons hcd _ ih => rw [List.all_cons, List.all_cons, hcd.alwaysFalse, ih]
  rw [allFalse, allFalse, hall]
  cases h <;> rfl

end Condition

namespace Routing

variable (rule : Rule) {c d : Condition} {cs ds : List Condition}

theorem narrow_agree (h : c.Alike d) (leading : TableRule) (leader : String)
    (nodes : List DataNode) (other : String) :
    Agree Eq (narrow rule c leading leader nodes other)
      (narrow rule d leading leader nodes other) := by
  refine (Agree.refl _).bind_eq fun otherRule => ?_
  exact (otherRule.nodesFor_agree h).bind_eq fun otherNodes => .refl _

/-- The nodes that tables share under conditions that are alike are the same. -/
theorem sharedNodes_agree (tables : List String) (h : c.Alike d) :
    Agree Eq (sharedNodes rule tables (some c)) (sharedNodes rule tables (some d)) := by
  cases tables with
  | nil => exact .refl _
  | cons first rest =>
      simp only [sharedNodes, leader, h.mentions_eq]
      refine (Agree.refl _).bind_eq fun leading => ?_
      refine (leading.nodesFor_agree h).bind_eq fun nodes => ?_
      exact (Agree.foldlM (fun nodes other _ => narrow_agree rule h _ _ nodes other) nodes).bind_eq
        fun nodes => .refl _

theorem ofRow_agree (tables : List String) (h : c.Alike d) :
    Agree Eq (ofRow rule tables c) (ofRow rule tables d) := by
  unfold ofRow
  rw [h.alwaysFalse]
  split
  · exact .refl _
  · exact (sharedNodes_agree rule tables h).bind_eq fun _ => .refl _

/-- **Tables that are spread alike are routed the same under conditions that are alike.** -/
theorem ofBound_agree (tables : List String) (h : List.Forall₂ Condition.Alike cs ds) :
    Agree Eq (ofBound rule tables cs) (ofBound rule tables ds) := by
  unfold ofBound
  rw [Condition.allFalse_eq h]
  split
  · exact .refl _
  · cases h with
    | nil => exact .refl _
    | cons hcd hrest =>
        have hrows := Agree.mapM ((List.Forall₂.cons hcd hrest).imp fun _ _ h =>
          ofRow_agree rule tables h)
        refine hrows.bind fun rows rows' heq => ?_
        rw [List.forall₂_eq_eq_eq] at heq
        rw [heq]
        exact .refl _

/-- And so are tables that are not. -/
theorem ofJoined_agree (tables : List String) (h : List.Forall₂ Condition.Alike cs ds) :
    Agree Eq (ofJoined rule tables cs) (ofJoined rule tables ds) :=
  (Agree.mapM_eq fun group _ => ofBound_agree rule group h).bind_eq fun _ => .refl _

/-! ### Statements -/

theorem ofSharded_agree (tables : List String) (h : List.Forall₂ Condition.Alike cs ds) :
    Agree Eq (ofSharded rule tables cs) (ofSharded rule tables ds) := by
  unfold ofSharded
  split
  · exact ofBound_agree rule tables h
  · exact ofJoined_agree rule tables h

theorem ofRows_agree (readOnly : Bool) (tables : List String)
    (h : List.Forall₂ Condition.Alike cs ds) :
    Agree Eq (ofRows rule readOnly tables cs) (ofRows rule readOnly tables ds) := by
  unfold ofRows
  simp only
  split
  · exact .refl _
  · split
    · exact .refl _
    · exact ofSharded_agree rule _ h

/-- **Statements on the same rows are routed the same under conditions that are alike.** -/
theorem ofTables_agree {s s' : Statement} (hs : s.IsOnRows) (hs' : s'.IsOnRows)
    (hnames : s'.tableNames = s.tableNames) (hreads : s'.isReadOnly = s.isReadOnly)
    (h : List.Forall₂ Condition.Alike cs ds) :
    Agree Eq (ofTables rule s cs) (ofTables rule s' ds) := by
  unfold ofTables
  rw [core_of_isOnRows hs, core_of_isOnRows hs', hnames, hreads]
  exact (ofRows_agree rule _ _ h).map_eq _

end Routing

/-- What routing makes of a statement that looks for rows, and what it leaves the counters at. -/
theorem LogicalSql.run_route_of_looksForRows {rule : Rule} {sql : LogicalSql}
    (h : sql.statement.LooksForRows) (s : Rule.Counters) :
    (sql.route rule).run.run s =
      match Routing.ofTables rule sql.statement
        (Condition.ofWhere rule sql.statement.tables sql.statement.condition? sql.parameters) with
      | .error e => (.error e, s)
      | .ok routing =>
          let (routing, s') := (Routing.withReplicas rule sql.statement.isReadOnly routing).run s
          (.ok ⟨sql, routing, none⟩, s') := by
  have hconditions : (sql.conditions rule).run.run s =
      (.ok (none, Condition.ofWhere rule sql.statement.tables sql.statement.condition?
        sql.parameters), s) := by
    obtain ⟨text, statement, parameters⟩ := sql
    rcases h with ⟨q, rfl⟩ | ⟨d, rfl⟩ <;> rfl
  unfold route
  rw [Stateful.run_bind, hconditions]
  simp only [Stateful.run_bind, Stateful.run_liftOutcome, Stateful.run_liftState]
  cases Routing.ofTables rule sql.statement
    (Condition.ofWhere rule sql.statement.tables sql.statement.condition? sql.parameters) <;> rfl

/-- **Statements whose conjuncts say the same in another order are routed alike.**  Both look for
rows of the same tables, and the values that the first compares with columns by which the tables are
spread are integers.  Either both are refused, or they reach the same places in the same order. -/
theorem LogicalSql.route_reordered {rule : Rule} {sql sql' : LogicalSql}
    (hkind : sql.statement.LooksForRows) (hkind' : sql'.statement.LooksForRows)
    (htables : sql'.statement.tables = sql.statement.tables)
    (hreads : sql'.statement.isReadOnly = sql.statement.isReadOnly) {p q : Predicate}
    (hp : sql.statement.condition? = some p) (hq : sql'.statement.condition? = some q)
    (hreordered : Condition.Reordered sql.parameters sql'.parameters p q)
    (hints : ∀ ref ∈ sql.statement.tables, p.IsOnInts rule ref sql.parameters)
    (s : Rule.Counters) :
    (∃ e e', (sql.route rule).run.run s = (.error e, s) ∧
        (sql'.route rule).run.run s = (.error e', s)) ∨
      ∃ r r' s', (sql.route rule).run.run s = (.ok r, s') ∧
        (sql'.route rule).run.run s = (.ok r', s') ∧ r'.routing = r.routing := by
  have hnames : sql'.statement.tableNames = sql.statement.tableNames := by
    rw [Statement.tableNames, htables, Statement.tableNames]
  have hagree := Routing.ofTables_agree rule hkind.isOnRows hkind'.isOnRows hnames hreads
    (Condition.ofWhere_alike hreordered hints)
  rw [run_route_of_looksForRows hkind, run_route_of_looksForRows hkind', hreads, htables, hp, hq]
  generalize Routing.ofTables rule sql.statement _ = x at hagree ⊢
  generalize Routing.ofTables rule sql'.statement _ = y at hagree ⊢
  cases hagree with
  | failed e e' => exact .inl ⟨e, e', rfl, rfl⟩
  | done h =>
      cases h
      exact .inr ⟨_, _, _, rfl, rfl, rfl⟩

/-- The search for the first order with its conditions the other way round, and with a parameter
more. -/
def reorderedOrderQuery : LogicalSql where
  text := "SELECT * FROM t_order WHERE order_id < ? AND order_id = ?"
  statement := .select {
    tables := [.ofName "t_order" 14]
    condition := some (.and [.compare (.ofName "order_id" 28) .lt (.markerAt 0 39),
      .compare (.ofName "order_id" 45) .eq (.markerAt 1 56)]) }
  parameters := [.int 3, .int 1]

/-- Both searches for the first order are answered by the second data source. -/
theorem LogicalSql.route_reordered_order :
    ∃ r r' s', (orderQuery.route (ordersRule [])).run.run (ordersRule []).start = (.ok r, s') ∧
      (reorderedOrderQuery.route (ordersRule [])).run.run (ordersRule []).start = (.ok r', s') ∧
      r'.routing.placements = [⟨.same "ds_1", [.same "t_order"]⟩] := by
  have hroute : (orderQuery.route (ordersRule [])).run.run (ordersRule []).start =
      (.ok ⟨orderQuery, ⟨[⟨.same "ds_1", [.same "t_order"]⟩], [[⟨"ds_1", "t_order"⟩]]⟩, none⟩,
        (ordersRule []).start) := rfl
  have hreordered : ∀ p ∈ orderQuery.statement.condition?,
      ∀ q ∈ reorderedOrderQuery.statement.condition?,
        Condition.Reordered orderQuery.parameters reorderedOrderQuery.parameters p q := by
    intro p hp q hq
    cases hp
    cases hq
    exact ⟨_, .swap _ _ [], .cons ⟨rfl, rfl, rfl⟩ (.cons ⟨rfl, rfl, rfl⟩ .nil)⟩
  have hints : ∀ p ∈ orderQuery.statement.condition?, ∀ ref ∈ orderQuery.statement.tables,
      p.IsOnInts (ordersRule []) ref orderQuery.parameters :=
    fun p hp ref _ => isOnInts_orderQuery _ ref p hp
  rcases @route_reordered (ordersRule []) orderQuery reorderedOrderQuery (.inl ⟨_, rfl⟩)
      (.inl ⟨_, rfl⟩) rfl rfl _ _ rfl rfl (hreordered _ rfl _ rfl) (hints _ rfl)
      (ordersRule []).start with
    ⟨e, e', hfail, -⟩ | ⟨r, r', s', hleft, hright, hsame⟩
  · cases hroute.symm.trans hfail
  · cases hroute.symm.trans hleft
    exact ⟨_, r', _, hroute, hright, hsame ▸ rfl⟩

end ShardedSql
