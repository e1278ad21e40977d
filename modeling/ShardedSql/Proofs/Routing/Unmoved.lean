/-
**A change of rows moves none of them to another shard.**

A statement may assign a column that its table is spread by only when its condition asks of the
column the very value that is assigned.  The condition that is gathered from the predicate is met by
every row of which the predicate may be true, so such an assignment gives the row what it has.  An
assignment to another column does not touch the ones that the table is spread by, and so the row
stays where it is whatever the other assignments make of it.

Main definitions:

* `ShardedSql.Assignment.IsTo` — an assignment is one to a table;
* `ShardedSql.Assignment.Turns`, `ShardedSql.Assignment.AllTurn` — **what an assignment, and what
  all assignments of a statement, may make of a row**;
* `ShardedSql.Assignment.Holds` — the row has what the assignment gives it;
* `ShardedSql.TableRule.SameShard` — two rows agree in all columns that a table is spread by.

Main results:

* `ShardedSql.Condition.checkAssignments_eq_ok` — which changes are not refused;
* `ShardedSql.Condition.holds_of_keepsValue` — what is not refused is held already;
* `ShardedSql.Assignment.sameShard_of_allTurn` — what is held already changes no such column;
* `ShardedSql.Update.keeps_shard` — **a change that is not refused leaves every row at its nodes**.
-/

import ShardedSql.Proofs.Routing.Where
import ShardedSql.Proofs.Text.Case

set_option relaxedAutoImplicit false
set_option autoImplicit false

namespace ShardedSql

variable {rule : Rule} {t : TableRule} {ref : TableRef} {parameters : List Value}
  {row row' : IntRow}

/-! ### What assignments do -/

namespace Assignment

/-- An assignment is one to a table: its column has no qualifier, or one that stands for the
table. -/
def IsTo (ref : TableRef) (a : Assignment) : Prop :=
  ∀ owner ∈ a.column.owner, ref.isCalled owner = true

/-- What an assignment may make of a row of a table.  A column that is given anything but an integer
may hold any integer afterwards. -/
structure Turns (ref : TableRef) (parameters : List Value) (a : Assignment) (row row' : IntRow) :
    Prop where
  others : ∀ column, ¬ (a.IsTo ref ∧ Text.sameName column a.column.name = true) →
    row'.at column = row.at column
  assigned : a.IsTo ref → ∀ n, a.value.resolve parameters = some (.int n) →
    row'.at a.column.name = n

/-- What some assignments may make of a row, one after another. -/
def AllTurn (ref : TableRef) (parameters : List Value) : List Assignment → IntRow → IntRow → Prop
  | [], row, row' => row' = row
  | a :: rest, row, row' =>
      ∃ between, a.Turns ref parameters row between ∧ AllTurn ref parameters rest between row'

/-- The row has what the assignment gives it, in a column that the table is spread by. -/
def Holds (ref : TableRef) (t : TableRule) (parameters : List Value) (row : IntRow)
    (a : Assignment) : Prop :=
  a.IsTo ref → t.isShardingColumn a.column.name = true →
    a.value.resolve parameters = some (.int (row.at a.column.name))

end Assignment

/-- Two rows agree in all columns that a table is spread by. -/
def TableRule.SameShard (t : TableRule) (row row' : IntRow) : Prop :=
  ∀ column ∈ t.shardingColumns, row'.at column = row.at column

/-- **Rows that agree in these columns are at the same nodes.** -/
theorem TableRule.SameShard.pin_eq (h : t.SameShard row row') :
    Condition.pin t row' = Condition.pin t row := by
  unfold Condition.pin
  congr 1
  exact List.map_congr_left fun column hcolumn => by rw [h column hcolumn]

namespace Assignment

/-- **One assignment of what a row has already** changes no column that the table is spread by. -/
theorem sameShard_of_turns {a : Assignment} (hholds : a.Holds ref t parameters row)
    {between between' : IntRow} (hsame : t.SameShard row between)
    (hturns : a.Turns ref parameters between between') : t.SameShard row between' := by
  intro column hcolumn
  by_cases hassigned : a.IsTo ref ∧ Text.sameName column a.column.name = true
  · obtain ⟨hto, hname⟩ := hassigned
    have hsharding : t.isShardingColumn a.column.name = true :=
      List.any_eq_true.2 ⟨column, hcolumn, hname⟩
    rw [between'.at_congr hname, row.at_congr hname]
    exact hturns.assigned hto _ (hholds hto hsharding)
  · rw [hturns.others column hassigned]
    exact hsame column hcolumn

/-- And so do all of them. -/
theorem sameShard_of_allTurn {assignments : List Assignment}
    (hholds : ∀ a ∈ assignments, a.Holds ref t parameters row) {between : IntRow}
    (hsame : t.SameShard row between) (hturn : AllTurn ref parameters assignments between row') :
    t.SameShard row row' := by
  induction assignments generalizing between with
  | nil =>
      cases hturn
      exact hsame
  | cons a rest ih =>
      obtain ⟨hfirst, hrest⟩ := List.forall_mem_cons.1 hholds
      obtain ⟨next, hnext, hturn⟩ := hturn
      exact ih hrest (sameShard_of_turns hfirst hsame hnext) hturn

end Assignment

/-! ### What is not refused -/

namespace Condition

/-- **A change is not refused when the conditions ask for every value that it assigns** to a column
that a table is spread by. -/
theorem checkAssignments_eq_ok {u : Update} {conditions : List Condition} :
    checkAssignments rule u conditions parameters = .ok () ↔
      ∀ a ∈ u.assignments, ∀ table ∈ shardedTablesOf rule u.tables a.column,
        keepsValue conditions parameters a table = true := by
  unfold checkAssignments
  rw [Outcome.forM_eq_ok]
  refine forall₂_congr fun a _ => ?_
  rw [Outcome.forM_eq_ok]
  refine forall₂_congr fun table _ => ?_
  cases keepsValue conditions parameters a table <;> simp

/-- The conditions of a change are those of its predicate, and it is not refused. -/
theorem ofStatement_update_eq_ok {u : Update} {key : Option GeneratedKey}
    {conditions : List Condition} :
    ofStatement rule (.update u) parameters key = .ok conditions ↔
      conditions = ofWhere rule u.tables u.condition parameters ∧
        checkAssignments rule u conditions parameters = .ok () := by
  unfold ofStatement
  rw [Outcome.bind_eq_ok]
  constructor
  · rintro ⟨⟨⟩, hcheck, h⟩
    cases h
    exact ⟨rfl, hcheck⟩
  · rintro ⟨rfl, hcheck⟩
    exact ⟨(), hcheck, rfl⟩

/-- **A value that the condition asks for is the one that every row has that meets it.** -/
theorem holds_of_keepsValue {conditions : List Condition}
    (hmet : ∀ c ∈ conditions.head?, c.MetBy row) {a : Assignment} {table : String}
    (h : keepsValue conditions parameters a table = true) :
    a.value.resolve parameters = some (.int (row.at a.column.name)) := by
  unfold keepsValue at h
  split at h
  · rename_i v c hv hc
    rw [Option.any_eq_true] at h
    obtain ⟨known, hknown, hone⟩ := h
    have hmeets := hmet c hc known (List.mem_of_find?_eq_some hknown)
    rw [of_decide_eq_true hone] at hmeets
    -- the row meets a list of one value only
    have hvalue : Value.int (row.at known.column) = v := List.mem_singleton.1 hmeets
    have habout := List.find?_some hknown
    rw [ColumnConstraint.isAbout, Bool.and_eq_true] at habout
    rw [hv, ← hvalue, row.at_congr habout.2]
  · cases h

end Condition

/-! ### Changes -/

/-- **A change that is not refused leaves every row at its nodes.**  Of its tables one is spread,
and the values that it compares with columns by which the table is spread are integers.  Whatever
the assignments make of a row of which the predicate may be true, the columns by which the table is
spread keep their values. -/
theorem Update.keeps_shard {u : Update} {before after : List TableRef}
    (htables : u.tables = before ++ ref :: after) (ht : rule.table? ref.name = some t)
    (hbefore : ∀ x ∈ before, rule.isSharded x.name = false)
    (hafter : ∀ x ∈ after, rule.isSharded x.name = false)
    (hints : ∀ p ∈ u.condition, p.IsOnInts rule ref parameters) {key : Option GeneratedKey}
    {conditions : List Condition}
    (haccepted : Condition.ofStatement rule (.update u) parameters key = .ok conditions)
    (hrow : ∀ p ∈ u.condition, p.MayHold rule ref parameters row)
    (hturn : Assignment.AllTurn ref parameters u.assignments row row') :
    t.SameShard row row' ∧
      t.nodesFor (some (Condition.pin t row')) = t.nodesFor (some (Condition.pin t row)) := by
  obtain ⟨rfl, hcheck⟩ := Condition.ofStatement_update_eq_ok.1 haccepted
  have href : ref ∈ u.tables := htables ▸ List.mem_append_right _ (List.mem_cons_self ..)
  have hsingle : ∀ x ∈ u.tables, rule.isSharded x.name = true → x = ref :=
    htables ▸ Rule.eq_of_isSharded hbefore hafter
  have hmet := Condition.metBy_of_mem_head? (Condition.ofWhere_spec hsingle hints hrow)
  -- so the row has whatever is assigned to a column that the table is spread by
  have hholds : ∀ a ∈ u.assignments, a.Holds ref t parameters row := by
    intro a ha hto hcolumn
    have hsharding : rule.isShardingColumn a.column.name ref.name = true := by
      rw [Rule.isShardingColumn, ht]
      exact hcolumn
    obtain ⟨name, hname⟩ := Condition.exists_mem_shardedTablesOf href ⟨hto, hsharding⟩
    have hkeeps := Condition.checkAssignments_eq_ok.1 hcheck a ha name hname
    exact Condition.holds_of_keepsValue hmet hkeeps
  have hsame : t.SameShard row row' :=
    Assignment.sameShard_of_allTurn hholds (fun _ _ => rfl) hturn
  exact ⟨hsame, by rw [hsame.pin_eq]⟩

/-- A change of the order that `orderQuery` looks for, which is given the number that it has. -/
def orderChange : Update where
  tables := [.ofName "t_order" 7]
  assignments := [⟨.ofName "order_id" 19, .literal (.int 1) 30 30⟩,
    ⟨.ofName "amount" 33, .literal (.int 5) 42 42⟩]
  condition := orderQuery.statement.condition?

/-- The row of ones after the change. -/
def changedRow : IntRow := fun column => if column = "amount" then 5 else 1

/-- The change gives a row of ones another amount and leaves its number. -/
theorem allTurn_orderChange :
    Assignment.AllTurn (.ofName "t_order" 7) orderQuery.parameters orderChange.assignments
      (fun _ => 1) changedRow := by
  refine ⟨fun _ => 1, ⟨fun _ _ => rfl, fun _ n hn => ?_⟩, changedRow, ⟨fun column h => ?_, ?_⟩, rfl⟩
  · cases hn
    rfl
  · have hto : Assignment.IsTo (.ofName "t_order" 7)
        ⟨.ofName "amount" 33, .literal (.int 5) 42 42⟩ := fun owner howner => by cases howner
    have hne : Text.foldCase column ≠ "amount" := fun heq =>
      h ⟨hto, Text.foldCase_eq_iff.1 (heq.trans (by decide +kernel))⟩
    exact if_neg hne
  · intro _ n hn
    cases hn
    decide +kernel

/-- The first order stays in the second data source when its amount is changed. -/
theorem Update.keeps_shard_order :
    (∃ conditions, Condition.ofStatement (ordersRule []) (.update orderChange)
        orderQuery.parameters none = .ok conditions) ∧
      ordersTable.nodesFor (some (.pin ordersTable fun _ => 1)) = .ok [⟨"ds_1", "t_order"⟩] ∧
      ordersTable.nodesFor (some (.pin ordersTable changedRow)) = .ok [⟨"ds_1", "t_order"⟩] := by
  have hnodes : ordersTable.nodesFor (some (.pin ordersTable fun _ => 1)) =
      .ok [⟨"ds_1", "t_order"⟩] := by decide +kernel
  have haccepted : Condition.ofStatement (ordersRule []) (.update orderChange)
      orderQuery.parameters none =
        .ok [{ values := [⟨"t_order", "order_id", .oneOf [.int 1], [0]⟩] }] := by decide +kernel
  have htables : orderChange.tables = [] ++ .ofName "t_order" 7 :: [] := rfl
  have hnone : ∀ x ∈ ([] : List TableRef), (ordersRule []).isSharded x.name = false :=
    fun x hx => by cases hx
  exact ⟨⟨_, haccepted⟩, hnodes, (keeps_shard htables rfl hnone hnone (isOnInts_orderQuery _ _)
    haccepted (mayHold_orderQuery _ _) allTurn_orderChange).2.trans hnodes⟩

end ShardedSql
