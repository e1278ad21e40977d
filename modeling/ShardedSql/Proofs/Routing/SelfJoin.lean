/-
**Self-joins: two rows of one table.**

A statement may name a table twice, under two aliases, and look for pairs of its rows.  Its
condition says something of one row or of the other, while routing gathers all of it for the one
table.  Two rows at one node, of which the condition is true, are therefore not always found there.
They are exactly when two things hold.  In each column by which the table is spread some integer
meets all that is said of either row.  And on each axis of the node either such an integer belongs
there, or what is said of the column of that axis does not narrow it: it is passed over, or it is a
range and the algorithm takes the remainder of a hash.

Main definitions:

* `ShardedSql.Routing.ReachesPair` — a routing reaches a node of a table that is named twice;
* `ShardedSql.IntRow.IsAt` — the values of a row place it at a node;
* `ShardedSql.Predicate.LeavesTarget` — what is said of two rows leaves a target on an axis;
* `ShardedSql.Predicate.LeavesNode` — **what is said of two rows leaves a node**.

Main results:

* `ShardedSql.Predicate.mem_targets_iff` — the targets on an axis are those that are left;
* `ShardedSql.LogicalSql.reachesPair_spec` — a statement reaches the nodes that are left by what is
  gathered of two rows;
* `ShardedSql.LogicalSql.self_join_reaches_pair` — **when a self-join reaches the node that two rows
  share**.
-/

import ShardedSql.Proofs.Algorithm.Kept
import ShardedSql.Proofs.Condition.Pair
import ShardedSql.Proofs.Routing.Where

set_option relaxedAutoImplicit false
set_option autoImplicit false

namespace ShardedSql

/-! ### Nodes -/

/-- A routing reaches a node of the table that two references name. -/
def Routing.ReachesPair (r : Routing) (first second : TableRef) (n : DataNode) : Prop :=
  ∃ p ∈ r.placements, p.source.logic = n.dataSource ∧
    p.actual? first.name = some n.table ∧ p.actual? second.name = some n.table

/-- The values of a row place it at a node. -/
def IntRow.IsAt (row : IntRow) (t : TableRule) (n : DataNode) : Prop :=
  ∃ nodes, t.nodesFor (some (Condition.pin t row)) = .ok nodes ∧ n ∈ nodes

namespace Predicate

section

variable (parameters : List Value) (table : String) (t : TableRule)

/-- What a predicate says of two rows leaves a target on an axis of their table.  Either an integer
that belongs to the target meets all that is said of the column of the axis.  Or nothing that is
said of the column is used there: the name of the table is not that of its rule, what is said of the
column is passed over, or it is a range, which a hash does not narrow. -/
def LeavesTarget (available : List String) (name : String) (p : Predicate) : Strategy → Prop
  | .none => True
  | .standard column algorithm =>
      (∃ m, p.KeepsAll parameters column m ∧
        algorithm.target available ⟨t.logicTable, column, .int m⟩ = .ok name) ∨
      Text.sameName table t.logicTable = false ∨ p.Bars t table column ∨
      (algorithm.Hashes ∧ ¬ p.ListsValues parameters column)

/-- What a predicate says of two rows leaves a node of their table: in each column by which the
table is spread some integer meets all of it, and it leaves the data source and the actual table. -/
structure LeavesNode (n : DataNode) (p : Predicate) : Prop where
  meetable : ∀ column ∈ t.shardingColumns, ∃ m, p.KeepsAll parameters column m
  source : p.LeavesTarget parameters table t t.dataSources n.dataSource t.database
  table : p.LeavesTarget parameters table t (t.tablesIn n.dataSource) n.table t.table

end

end Predicate

section

variable {rule : Rule} {t : TableRule} {n : DataNode} {parameters : List Value}
  {first second : TableRef} {row row' : IntRow} {p : Predicate}

/-! ### Axes -/

/-- The parts of a node are targets of the values of a row that is there. -/
theorem IntRow.IsAt.targets (h : row.IsAt t n) :
    (∃ sources, t.sourcesFor (some (Condition.pin t row)) = .ok sources ∧
      n.dataSource ∈ sources) ∧
    ∃ tables, t.tablesFor (some (Condition.pin t row)) n.dataSource = .ok tables ∧
      n.table ∈ tables := by
  obtain ⟨nodes, hnodes, hn⟩ := h
  obtain ⟨sources, hsources, hsource, hspec⟩ := TableRule.nodesFor_spec hnodes
  obtain ⟨tables, htables, hmem⟩ := hspec n.dataSource (hsource n hn)
  exact ⟨⟨sources, hsources, hsource n hn⟩, tables, htables, (hmem n rfl).1 hn⟩

/-- The target that a row leaves on an axis is the one that its value belongs to. -/
theorem TableRule.target_of_pin {column : String} (hcolumn : column ∈ t.shardingColumns)
    {algorithm : Algorithm} {available pins : List String} {name : String}
    (hpins : (Strategy.standard column algorithm).targets available t.logicTable
      (t.constraint? (some (Condition.pin t row)) (some column)) = .ok pins)
    (hname : name ∈ pins) :
    algorithm.target available ⟨t.logicTable, column, .int (row.at column)⟩ = .ok name := by
  rw [constraint?_pin hcolumn] at hpins
  exact Strategy.target_of_targets_single hpins hname

/-- What routing uses of a column is what is known of it, unless the column is barred. -/
theorem TableRule.constraint?_ofPair
    (hfalse : (Condition.Gathered.ofPair rule first second parameters p).alwaysFalse = false)
    (column : String) :
    t.constraint? (Condition.Gathered.ofPair rule first second parameters p).conditions.head?
        (some column) =
      if !(Condition.Gathered.ofPair rule first second parameters p).bars t.logicTable column then
        (Condition.Gathered.ofPair rule first second parameters p).known t.logicTable column
      else none := by
  rw [← Condition.Gathered.knownIn_conditions hfalse]
  cases (Condition.Gathered.ofPair rule first second parameters p).conditions.head? <;> rfl

namespace Predicate

open Condition

/-- **On each axis a target that two rows share is left by what is gathered of them exactly when it
is left by what is said of them.** -/
theorem mem_targets_iff (ht : rule.table? first.name = some t)
    (hsame : Text.sameName first.name second.name = true)
    (hpair : p.IsOnPair parameters first second)
    (htrue : p.TrueAt parameters (IntRow.pair first row row'))
    (hmeetable : ∀ column ∈ t.shardingColumns, ∃ m, p.KeepsAll parameters column m)
    {s : Strategy} (hvalid : s.IsValid) (hcolumns : ∀ column ∈ s.column?, column ∈ t.shardingColumns)
    {available names pins pins' : List String} {name : String}
    (hnames : s.targets available t.logicTable
      (t.constraint? (Gathered.ofPair rule first second parameters p).conditions.head? s.column?) =
        .ok names)
    (hpins : s.targets available t.logicTable
      (t.constraint? (some (Condition.pin t row)) s.column?) = .ok pins) (hpin : name ∈ pins)
    (hpins' : s.targets available t.logicTable
      (t.constraint? (some (Condition.pin t row')) s.column?) = .ok pins') (hpin' : name ∈ pins') :
    name ∈ names ↔ p.LeavesTarget parameters first.name t available name s := by
  have havailable : name ∈ available := Strategy.targets_subset hpins name hpin
  cases s with
  | none =>
      cases hnames
      exact iff_of_true havailable trivial
  | standard column algorithm =>
      have hcolumn : column ∈ t.shardingColumns := hcolumns column rfl
      have hx := TableRule.target_of_pin hcolumn hpins hpin
      have hy := TableRule.target_of_pin hcolumn hpins' hpin'
      have hfalse := (Gathered.alwaysFalse_ofPair ht hsame hpair htrue).2 hmeetable
      -- without a constraint all targets are left
      have hall (hnone : t.constraint? (Gathered.ofPair rule first second parameters
          p).conditions.head? (some column) = none) : name ∈ names := by
        simp only [Strategy.column?, hnone] at hnames
        cases hnames
        exact havailable
      have hconstraint := TableRule.constraint?_ofPair (t := t) hfalse column
      by_cases hbars : p.Bars t first.name column
      · rw [(Gathered.bars_ofPair ht hsame hpair).2 hbars] at hconstraint
        exact iff_of_true (hall hconstraint) (.inr (.inr (.inl hbars)))
      · rw [← Gathered.bars_ofPair ht hsame hpair, Bool.not_eq_true] at hbars
        rw [hbars, Bool.not_false, if_pos rfl] at hconstraint
        cases hlogic : Text.sameName first.name t.logicTable with
        | false =>
            -- nothing is known of a table of the name of the rule
            have hnone := (Gathered.known_ofPair_of_other ht hsame hpair hlogic column)
            exact iff_of_true (hall (hconstraint.trans hnone)) (.inr (.inl hlogic))
        | true =>
            have hknown : (Gathered.ofPair rule first second parameters p).known first.name column =
                (Gathered.ofPair rule first second parameters p).known t.logicTable column :=
              ColumnConstraint.knownIn_congr
                (sameColumn_iff.2 ⟨hlogic, Text.sameName_refl column⟩)
            rw [← hknown] at hconstraint
            cases hk : (Gathered.ofPair rule first second parameters p).known first.name column with
            | none =>
                have hkeeps := Gathered.keepsAll_of_known_eq_none ht hsame hpair hcolumn hk
                exact iff_of_true (hall (hconstraint.trans hk)) (.inl ⟨_, hkeeps _, hx⟩)
            | some k =>
                obtain ⟨ks, hjoins, hown, hmeets, hrange⟩ :=
                  Gathered.known_ofPair ht hsame hpair htrue hcolumn hk
                have hempty : k.isEmpty = false := (hjoins.isEmpty_eq_false_iff hown).2
                  ((hmeetable column hcolumn).imp fun m hm => (hmeets m).2 hm)
                rw [Strategy.column?, hconstraint, hk] at hnames
                rw [Strategy.mem_targets_iff hvalid hjoins hown hempty hx hy hnames, hrange]
                have hpassed : ¬ p.Bars t first.name column := by
                  rw [← Gathered.bars_ofPair ht hsame hpair, hbars]
                  exact Bool.false_ne_true
                simp only [LeavesTarget, hmeets, hlogic, hpassed, Bool.true_eq_false, false_or]
                exact or_comm

/-- **A node that two rows share is left by what is gathered of them exactly when it is left by what
is said of them.** -/
theorem mem_nodesFor_iff (ht : rule.table? first.name = some t)
    (hsame : Text.sameName first.name second.name = true) (hvalid : t.IsValid)
    (hpair : p.IsOnPair parameters first second)
    (htrue : p.TrueAt parameters (IntRow.pair first row row'))
    (hmeetable : ∀ column ∈ t.shardingColumns, ∃ m, p.KeepsAll parameters column m)
    (hrow : row.IsAt t n) (hrow' : row'.IsAt t n) {left : List DataNode}
    (hleft : t.nodesFor (Gathered.ofPair rule first second parameters p).conditions.head? =
      .ok left) :
    n ∈ left ↔ p.LeavesNode parameters first.name t n := by
  obtain ⟨⟨pins, hpins, hpin⟩, tablePins, htablePins, htablePin⟩ := hrow.targets
  obtain ⟨⟨pins', hpins', hpin'⟩, tablePins', htablePins', htablePin'⟩ := hrow'.targets
  obtain ⟨sources, hsources, hsource, hspec⟩ := TableRule.nodesFor_spec hleft
  have hsourceIff := mem_targets_iff ht hsame hpair htrue hmeetable hvalid.database
    t.mem_shardingColumns_of_database hsources hpins hpin hpins' hpin'
  have htableIff {tables : List String}
      (htables : t.tablesFor (Gathered.ofPair rule first second parameters p).conditions.head?
        n.dataSource = .ok tables) :=
    mem_targets_iff ht hsame hpair htrue hmeetable hvalid.table t.mem_shardingColumns_of_table
      htables htablePins htablePin htablePins' htablePin'
  constructor
  · intro hn
    obtain ⟨tables, htables, hmem⟩ := hspec n.dataSource (hsource n hn)
    exact ⟨hmeetable, hsourceIff.1 (hsource n hn), (htableIff htables).1 ((hmem n rfl).1 hn)⟩
  · intro h
    obtain ⟨tables, htables, hmem⟩ := hspec n.dataSource (hsourceIff.2 h.source)
    exact (hmem n rfl).2 ((htableIff htables).2 h.table)

/-- Where nothing is said of two rows their node is left. -/
theorem leavesNode_of_nothing (hrow : row.IsAt t n) (table : String) :
    (Predicate.and []).LeavesNode parameters table t n := by
  have hkeeps (column : String) (m : Int64) : (Predicate.and []).KeepsAll parameters column m :=
    fun q hq => by cases hq
  -- the values of a row at the node meet what is said
  have hleaves {s : Strategy} (hcolumns : ∀ column ∈ s.column?, column ∈ t.shardingColumns)
      {available pins : List String} {name : String}
      (hpins : s.targets available t.logicTable
        (t.constraint? (some (Condition.pin t row)) s.column?) = .ok pins) (hname : name ∈ pins) :
      (Predicate.and []).LeavesTarget parameters table t available name s := by
    cases s with
    | none => trivial
    | standard column algorithm =>
        exact .inl ⟨_, hkeeps column _,
          TableRule.target_of_pin (hcolumns column rfl) hpins hname⟩
  obtain ⟨⟨pins, hpins, hpin⟩, tablePins, htablePins, htablePin⟩ := hrow.targets
  exact ⟨fun column _ => ⟨0, hkeeps column 0⟩,
    hleaves t.mem_shardingColumns_of_database hpins hpin,
    hleaves t.mem_shardingColumns_of_table htablePins htablePin⟩

end Predicate

/-! ### Statements -/

/-- A statement that names one table twice has one table. -/
theorem Statement.tableNames_pair {s : Statement} (htables : s.tables = [first, second])
    (hsame : Text.sameName first.name second.name = true) : s.tableNames = [first.name] := by
  have hfound : ([first.name].any fun n => Text.sameName n second.name) = true := by
    rw [List.any_cons, hsame, Bool.true_or]
  rw [Statement.tableNames, htables]
  exact if_pos hfound

/-- What a placement finds does not depend on the case of letters. -/
theorem Placement.actual?_congr {a b : String} (h : Text.sameName a b = true) (p : Placement) :
    p.actual? a = p.actual? b := by
  have hsame (t : Renaming) : Text.sameName t.logic a = Text.sameName t.logic b := by
    rw [Text.sameName, Text.sameName, (Text.sameName_iff a b).1 h]
  simp only [Placement.actual?, hsame]

/-- **A statement that names a table twice reaches the nodes that are left by what is gathered of the
two**, and none where no row can meet it. -/
theorem LogicalSql.reachesPair_spec {sql : LogicalSql} (hkind : sql.statement.LooksForRows)
    (htables : sql.statement.tables = [first, second])
    (hsame : Text.sameName first.name second.name = true)
    (ht : rule.table? first.name = some t) (hbroadcast : rule.isBroadcast first.name = false)
    {g : Condition.Gathered}
    (hof : Condition.ofWhere rule [first, second] sql.statement.condition? sql.parameters =
      g.conditions)
    {s s' : Rule.Counters} {r : Routed} (hroute : (sql.route rule).run.run s = (.ok r, s')) :
    (r.routing.ReachesPair first second n → g.alwaysFalse = false) ∧
      (g.alwaysFalse = false → ∃ left, t.nodesFor g.conditions.head? = .ok left ∧
        (r.routing.ReachesPair first second n ↔ n ∈ left)) := by
  have hnames := Statement.tableNames_pair htables hsame
  have hsharded : rule.shardedAmong sql.statement.tableNames = [first.name] := by
    rw [hnames, Rule.shardedAmong, List.filter_singleton, (rule.isSharded_iff _).2 ⟨t, ht⟩]
    rfl
  have hnone : rule.allBroadcast sql.statement.tableNames = false := by
    simp [hnames, Rule.allBroadcast, hbroadcast]
  obtain ⟨hleft, hnowhere⟩ := reaches_iff_left hkind ht hsharded hnone (htables ▸ hof)
    g.length_conditions_le_one hroute
  constructor
  · rintro ⟨p, hp, -, hactual, -⟩
    by_contra hfalse
    rw [Bool.not_eq_false] at hfalse
    rw [hnowhere (by rw [Condition.Gathered.conditions_of_alwaysFalse hfalse]; rfl) p hp] at hactual
    cases hactual
  · intro hfalse
    obtain ⟨left, hfor, hreached⟩ := hleft (Condition.Gathered.meetable_of_mem_conditions hfalse)
    refine ⟨left, hfor, ?_⟩
    rw [hreached n]
    constructor
    · rintro ⟨p, hp, hsource, hactual, -⟩
      exact ⟨p, hp, hsource, hactual⟩
    · rintro ⟨p, hp, hsource, hactual⟩
      exact ⟨p, hp, hsource, hactual, Placement.actual?_congr hsame p ▸ hactual⟩

/-- **When a self-join reaches the node that two rows share.**  The statement names a table that is
spread twice, and its condition is true of the two rows.  The node is reached exactly when it is left
by what the condition says of either row. -/
theorem LogicalSql.self_join_reaches_pair {registry : Registry} {config : RuleConfig}
    (hrule : Rule.ofConfig registry config = .ok rule) {sql : LogicalSql}
    (hkind : sql.statement.LooksForRows) (htables : sql.statement.tables = [first, second])
    (hsame : Text.sameName first.name second.name = true)
    (ht : rule.table? first.name = some t) (hbroadcast : rule.isBroadcast first.name = false)
    (hpair : ∀ p ∈ sql.statement.condition?, p.IsOnPair sql.parameters first second)
    (htrue : ∀ p ∈ sql.statement.condition?,
      p.TrueAt sql.parameters (IntRow.pair first row row'))
    (hrow : row.IsAt t n) (hrow' : row'.IsAt t n)
    {s s' : Rule.Counters} {r : Routed} (hroute : (sql.route rule).run.run s = (.ok r, s')) :
    r.routing.ReachesPair first second n ↔
      ∀ p ∈ sql.statement.condition?, p.LeavesNode sql.parameters first.name t n := by
  have hvalid := Rule.isValid_of_table? hrule ht
  have hreaches {p : Predicate} (hpair : p.IsOnPair sql.parameters first second)
      (htrue : p.TrueAt sql.parameters (IntRow.pair first row row'))
      (hof : Condition.ofWhere rule [first, second] sql.statement.condition? sql.parameters =
        (Condition.Gathered.ofPair rule first second sql.parameters p).conditions) :
      r.routing.ReachesPair first second n ↔ p.LeavesNode sql.parameters first.name t n := by
    obtain ⟨hmeetable, hspec⟩ := reachesPair_spec hkind htables hsame ht hbroadcast hof hroute
    have hkept := Condition.Gathered.alwaysFalse_ofPair ht hsame hpair htrue
    constructor
    · intro h
      obtain ⟨left, hleft, hiff⟩ := hspec (hmeetable h)
      exact (Predicate.mem_nodesFor_iff ht hsame hvalid hpair htrue (hkept.1 (hmeetable h)) hrow
        hrow' hleft).1 (hiff.1 h)
    · intro h
      obtain ⟨left, hleft, hiff⟩ := hspec (hkept.2 h.meetable)
      exact hiff.2 ((Predicate.mem_nodesFor_iff ht hsame hvalid hpair htrue h.meetable hrow hrow'
        hleft).2 h)
  cases hcondition : sql.statement.condition? with
  | none =>
      -- as if the condition were a conjunction of nothing
      rw [hcondition] at hreaches
      have hnothing : (Predicate.and []).IsOnPair sql.parameters first second :=
        ⟨fun leaf hleaf => (by cases hleaf), fun leaf hleaf => (by cases hleaf)⟩
      exact iff_of_true ((hreaches hnothing trivial rfl).2 (Predicate.leavesNode_of_nothing hrow _))
        fun p hp => by cases hp
  | some p =>
      rw [hcondition] at hreaches
      rw [hreaches (hpair p hcondition) (htrue p hcondition)
        (Condition.Clue.conditions_foldl p).symm]
      exact ⟨fun h q hq => Option.some.inj hq ▸ h, fun h => h p rfl⟩

end

/-! ### Pairs of orders -/

/-- The table of orders under its first alias. -/
def ordersA : TableRef := ⟨"t_order", some "a", 14, 20⟩

/-- The table of orders under its second alias. -/
def ordersB : TableRef := ⟨"t_order", some "b", 25, 31⟩

/-- A search for the first order together with orders whose numbers compare with a given one. -/
def orderPairs (op : Comparison) (symbol : String) (n : Int64) : LogicalSql where
  text := "SELECT * FROM t_order a, t_order b WHERE a.order_id = 1 AND b.order_id " ++ symbol ++
    " " ++ (Value.int n).literal
  statement := .select {
    tables := [ordersA, ordersB]
    condition := some (.and [
      .compare (.qualified "a" "order_id" 41) .eq (.literal (.int 1) 54 54),
      .compare (.qualified "b" "order_id" 60) op (.literal (.int n) 73 73)]) }
  parameters := []

section

variable {op : Comparison} {symbol : String} {n : Int64}

theorem isOnPair_orderPairs : ∀ p ∈ (orderPairs op symbol n).statement.condition?,
    p.IsOnPair (orderPairs op symbol n).parameters ordersA ordersB := by
  intro p hp
  cases hp
  constructor
  · intro leaf hleaf c hc
    rcases List.mem_cons.1 hleaf with rfl | hleaf
    · cases hc
      exact .inl (by decide)
    · cases List.mem_singleton.1 hleaf
      cases hc
      exact .inr (by decide)
  · intro leaf hleaf e he v hv
    rcases List.mem_cons.1 hleaf with rfl | hleaf
    · cases List.mem_singleton.1 he
      cases hv
      exact ⟨1, rfl⟩
    · cases List.mem_singleton.1 hleaf
      cases List.mem_singleton.1 he
      cases hv
      exact ⟨n, rfl⟩

/-- The first order and another one are such a pair when the number of the other one compares. -/
theorem trueAt_orderPairs {m : Int64} (h : op.Holds m n) :
    ∀ p ∈ (orderPairs op symbol n).statement.condition?,
      p.TrueAt (orderPairs op symbol n).parameters
        (IntRow.pair ordersA (fun _ => 1) (fun _ => m)) := by
  intro p hp
  cases hp
  refine ⟨fun c hc k hk => ?_, fun c hc k hk => ?_, trivial⟩
  · cases hc
    cases hk
    rfl
  · cases hc
    cases hk
    exact h

/-- The number of an order meets what is said of either order when it is the first one and compares
with the given one. -/
theorem keepsAll_orderPairs (hop : op ≠ .ne) {m : Int64} :
    ∀ p ∈ (orderPairs op symbol n).statement.condition?,
      (p.KeepsAll (orderPairs op symbol n).parameters "order_id" m ↔ m = 1 ∧ op.Holds m n) := by
  intro p hp
  cases hp
  constructor
  · intro h
    exact ⟨h _ (List.mem_cons_self ..) _ rfl (Text.sameName_refl _) rfl 1 rfl,
      h _ (List.mem_cons_of_mem _ (List.mem_singleton.2 rfl)) _ rfl (Text.sameName_refl _)
        (decide_eq_false hop) n rfl⟩
  · rintro ⟨rfl, hholds⟩ q hq c _ _ _
    rcases List.mem_cons.1 hq with rfl | hq
    · intro k hk
      cases hk
      rfl
    · cases List.mem_singleton.1 hq
      intro k hk
      cases hk
      exact hholds

end

theorem isAt_first : IntRow.IsAt (fun _ => 1) ordersTable ⟨"ds_1", "t_order"⟩ :=
  ⟨[⟨"ds_1", "t_order"⟩], by decide +kernel, List.mem_singleton.2 rfl⟩

theorem isAt_third : IntRow.IsAt (fun _ => 3) ordersTable ⟨"ds_1", "t_order"⟩ :=
  ⟨[⟨"ds_1", "t_order"⟩], by decide +kernel, List.mem_singleton.2 rfl⟩

/-- The condition of a statement that names the table of orders twice is true of two orders, both of
which are in the second data source, but the statement does not reach them. -/
def LogicalSql.MissesPair (sql : LogicalSql) (rule : Rule) (row row' : IntRow) : Prop :=
  sql.statement.tables = [ordersA, ordersB] ∧ rule.table? "t_order" = some ordersTable ∧
    (∀ p ∈ sql.statement.condition?, p.IsOnPair sql.parameters ordersA ordersB) ∧
    (∀ p ∈ sql.statement.condition?, p.TrueAt sql.parameters (IntRow.pair ordersA row row')) ∧
    row.IsAt ordersTable ⟨"ds_1", "t_order"⟩ ∧ row'.IsAt ordersTable ⟨"ds_1", "t_order"⟩ ∧
    ∃ r s', (sql.route rule).run.run rule.start = (.ok r, s') ∧
      ∀ p ∈ r.routing.placements, p.covers ⟨"ds_1", "t_order"⟩ = false

namespace LogicalSql

/-- The third order is found with the first one when its number is to be below four, as that of the
first one is, and is not found when its number is to be three. -/
theorem self_join_reaches_pair_order :
    Rule.ofConfig .builtin (ordersConfig []) = .ok (ordersRule []) ∧
      (∃ r s', ((orderPairs .lt "<" 4).route (ordersRule [])).run.run (ordersRule []).start =
          (.ok r, s') ∧ r.routing.ReachesPair ordersA ordersB ⟨"ds_1", "t_order"⟩) ∧
      ∃ r s', ((orderPairs .eq "=" 3).route (ordersRule [])).run.run (ordersRule []).start =
          (.ok r, s') ∧ ¬ r.routing.ReachesPair ordersA ordersB ⟨"ds_1", "t_order"⟩ := by
  have hrule : Rule.ofConfig .builtin (ordersConfig []) = .ok (ordersRule []) := by
    decide +kernel
  have hsame : Text.sameName ordersA.name ordersB.name = true := Text.sameName_refl _
  refine ⟨hrule, ?_, ?_⟩
  · have hthree : Comparison.lt.Holds 3 4 := by
      have hlt : (3 : Int64).toInt < (4 : Int64).toInt := by decide
      exact hlt
    have hone : Comparison.lt.Holds 1 4 := by
      have hlt : (1 : Int64).toInt < (4 : Int64).toInt := by decide
      exact hlt
    have hroute : ((orderPairs .lt "<" 4).route (ordersRule [])).run.run (ordersRule []).start =
        (.ok ⟨orderPairs .lt "<" 4,
          ⟨[⟨.same "ds_1", [.same "t_order"]⟩], [[⟨"ds_1", "t_order"⟩]]⟩, none⟩,
          (ordersRule []).start) := rfl
    refine ⟨_, _, hroute, (self_join_reaches_pair hrule (.inl ⟨_, rfl⟩) rfl hsame rfl rfl
      isOnPair_orderPairs (trueAt_orderPairs hthree) isAt_first isAt_third hroute).2
        fun p hp => ?_⟩
    have hkeeps := (keepsAll_orderPairs (by decide) p hp).2 ⟨rfl, hone⟩
    exact ⟨fun column hcolumn => ⟨1, List.mem_singleton.1 hcolumn ▸ hkeeps⟩,
      .inl ⟨1, hkeeps, by decide +kernel⟩, trivial⟩
  · have hroute : ((orderPairs .eq "=" 3).route (ordersRule [])).run.run (ordersRule []).start =
        (.ok ⟨orderPairs .eq "=" 3, ⟨[], []⟩, none⟩, (ordersRule []).start) := rfl
    have hself : Comparison.eq.Holds 3 3 := rfl
    refine ⟨_, _, hroute, fun hreaches => ?_⟩
    have hleaves := (self_join_reaches_pair hrule (.inl ⟨_, rfl⟩) rfl hsame rfl rfl
      isOnPair_orderPairs (trueAt_orderPairs hself) isAt_first isAt_third hroute).1 hreaches _ rfl
    obtain ⟨m, hm⟩ := hleaves.meetable "order_id" (List.mem_singleton.2 rfl)
    obtain ⟨rfl, hthree⟩ := (keepsAll_orderPairs (by decide) _ rfl).1 hm
    have hequal : (1 : Int64) = 3 := hthree
    exact absurd hequal (by decide)

/-- A table that is also on every data source is read from the first one, and conditions on two
rows that no single value meets lead nowhere: in both cases the data source that has the two rows
is not reached. -/
theorem self_join_of_conflict :
    (Rule.ofConfig .builtin (ordersConfig ["t_order"]) = .ok (ordersRule ["t_order"]) ∧
      (orderPairs .eq "=" 1).MissesPair (ordersRule ["t_order"]) (fun _ => 1) (fun _ => 1)) ∧
    (Rule.ofConfig .builtin (ordersConfig []) = .ok (ordersRule []) ∧
      (orderPairs .eq "=" 3).MissesPair (ordersRule []) (fun _ => 1) (fun _ => 3)) := by
  refine ⟨⟨by decide +kernel, ?_⟩, ⟨by decide +kernel, ?_⟩⟩
  · refine ⟨rfl, rfl, isOnPair_orderPairs, trueAt_orderPairs rfl, isAt_first, isAt_first,
      ⟨orderPairs .eq "=" 1, ⟨[⟨.same "ds_0", [.same "t_order"]⟩], []⟩, none⟩,
      (ordersRule ["t_order"]).start, rfl, fun p hp => ?_⟩
    cases List.mem_singleton.1 hp
    decide +kernel
  · exact ⟨rfl, rfl, isOnPair_orderPairs, trueAt_orderPairs rfl, isAt_first, isAt_third,
      ⟨orderPairs .eq "=" 3, ⟨[], []⟩, none⟩, (ordersRule []).start, rfl, fun p hp => by cases hp⟩

end LogicalSql

end ShardedSql
