/-
**Rows that a predicate may be true of meet the conditions that it gives.**

A row is looked at through the integers in its columns.  What a predicate says of columns by which
the table is not spread, of other tables, and of expressions that stand for no integer is left
open: a row may make it true.  The constraints that are gathered from such a predicate are met by
every row of which it may be true, as each of them comes from a conjunct, and narrowing a
constraint keeps what meets both parts.

Main definitions:

* `ShardedSql.IntRow` — the integers in the columns of a row;
* `ShardedSql.Condition.MetBy` — a row meets what a condition says of columns;
* `ShardedSql.TableRef.SpreadBy` — a column as a predicate names it is one by which a table is
  spread;
* `ShardedSql.Predicate.MayHold` — **a predicate may be true of a row**;
* `ShardedSql.Predicate.IsOnInts` — values that are compared with such columns are integers;
* `ShardedSql.Condition.Gathered.Sound` — a row meets everything that was gathered;
* `ShardedSql.Condition.TrueOf` — what a conjunct says of a column is true of a row.

Main results:

* `ShardedSql.Condition.meets_of_constraintOf?` — what is taken from a conjunct is met;
* `ShardedSql.Condition.ofWhere_of_conjuncts` — **the condition of a predicate is met by every row
  of which its conjuncts are true**;
* `ShardedSql.Condition.ofWhere_spec` — and so by every row of which the predicate may be true.
-/

import ShardedSql.Proofs.Range
import ShardedSql.Proofs.Rule.Tables

set_option relaxedAutoImplicit false
set_option autoImplicit false

namespace ShardedSql

/-! ### Rows -/

/-- The integers in the columns of a row, by the names of the columns with ASCII letters lowered. -/
def IntRow := String → Int64

/-- The integer in a column of a row. -/
def IntRow.at (row : IntRow) (column : String) : Int64 := row (Text.foldCase column)

theorem IntRow.at_congr (row : IntRow) {a b : String} (h : Text.sameName a b = true) :
    row.at a = row.at b := by
  rw [IntRow.at, IntRow.at, Text.foldCase, Text.foldCase, (Text.sameName_iff a b).1 h]

/-- A row meets what a condition says of columns. -/
def Condition.MetBy (row : IntRow) (c : Condition) : Prop :=
  ∀ v ∈ c.values, v.constraint.Meets (row.at v.column)

/-! ### Predicates -/

/-- What a comparison means. -/
def Comparison.Holds (a b : Int64) : Comparison → Prop
  | .eq => a = b
  | .ne => a ≠ b
  | .lt => a.toInt < b.toInt
  | .le => a.toInt ≤ b.toInt
  | .gt => b.toInt < a.toInt
  | .ge => b.toInt ≤ a.toInt

/-- A column as a statement names it is one by which a table is spread: it has no qualifier, or one
that stands for the table. -/
def TableRef.SpreadBy (t : TableRef) (rule : Rule) (c : ColumnRef) : Prop :=
  (∀ owner ∈ c.owner, t.isCalled owner = true) ∧ rule.isShardingColumn c.name t.name = true

namespace Predicate

/-- The expressions that a condition without parts compares its column with. -/
def operands : Predicate → List Expr
  | .compare _ _ right => [right]
  | .oneOf _ list _ => list
  | .between _ low high _ => [low, high]
  | _ => []

/-- What a condition without parts says of an integer in its column.  It says nothing when it
compares with anything but integers. -/
def LeafHolds (parameters : List Value) (n : Int64) : Predicate → Prop
  | .compare _ op right => ∀ m, right.resolve parameters = some (.int m) → op.Holds n m
  | .oneOf _ list negated => ∀ ms : List Int64,
      list.map (Expr.resolve parameters) = ms.map (fun m => some (.int m)) →
        (n ∈ ms ↔ negated = false)
  | .between _ low high negated => ∀ a b, low.resolve parameters = some (.int a) →
      high.resolve parameters = some (.int b) →
        (a.toInt ≤ n.toInt ∧ n.toInt ≤ b.toInt ↔ negated = false)
  | _ => True

section

variable (rule : Rule) (t : TableRef) (parameters : List Value) (row : IntRow)

/-- A condition without parts may be true of a row.  What it says of columns by which the table is
not spread is left open. -/
def LeafMayHold (p : Predicate) : Prop :=
  ∀ c ∈ p.column?, t.SpreadBy rule c → p.LeafHolds parameters (row.at c.name)

mutual

/-- A predicate may be true of a row. -/
def MayHold : Predicate → Prop
  | .and parts => AllMayHold parts
  | .or parts => AnyMayHold parts
  | p => LeafMayHold rule t parameters row p

/-- All of some predicates may be true of a row. -/
def AllMayHold : List Predicate → Prop
  | [] => True
  | p :: rest => p.MayHold ∧ AllMayHold rest

/-- One of some predicates may be true of a row. -/
def AnyMayHold : List Predicate → Prop
  | [] => False
  | p :: rest => p.MayHold ∨ AnyMayHold rest

end

/-- Values that are compared with columns by which the table is spread are integers. -/
def IsOnInts (p : Predicate) : Prop :=
  ∀ leaf ∈ p.leaves, ∀ c ∈ leaf.column?, t.SpreadBy rule c →
    ∀ e ∈ leaf.operands, ∀ v ∈ e.resolve parameters, ∃ n, v = .int n

end

variable {rule : Rule} {t : TableRef} {parameters : List Value} {row : IntRow}

mutual

/-- The conjuncts of a predicate that may be true may each be true. -/
theorem mayHold_of_mem_conjuncts : ∀ p : Predicate, p.MayHold rule t parameters row →
    ∀ q ∈ p.conjuncts, q.MayHold rule t parameters row
  | .and parts, h, q, hq => mayHold_of_mem_conjunctsOf parts h q hq
  | .or _, h, _, hq => by cases List.mem_singleton.1 hq; exact h
  | .compare .., h, _, hq => by cases List.mem_singleton.1 hq; exact h
  | .oneOf .., h, _, hq => by cases List.mem_singleton.1 hq; exact h
  | .between .., h, _, hq => by cases List.mem_singleton.1 hq; exact h
  | .other, h, _, hq => by cases List.mem_singleton.1 hq; exact h

theorem mayHold_of_mem_conjunctsOf : ∀ ps : List Predicate, AllMayHold rule t parameters row ps →
    ∀ q ∈ conjunctsOf ps, q.MayHold rule t parameters row
  | [], _, _, hq => by cases hq
  | p :: rest, h, q, hq => by
      rcases List.mem_append.1 hq with hq | hq
      · exact mayHold_of_mem_conjuncts p h.1 q hq
      · exact mayHold_of_mem_conjunctsOf rest h.2 q hq

end

mutual

/-- A conjunct that is about a column is one of the leaves. -/
theorem mem_leaves_of_mem_conjuncts : ∀ p : Predicate, ∀ q ∈ p.conjuncts, q.column? ≠ none →
    q ∈ p.leaves
  | .and parts, q, hq, hc => mem_leavesOf_of_mem_conjunctsOf parts q hq hc
  | .or _, _, hq, hc => by cases List.mem_singleton.1 hq; exact absurd rfl hc
  | .compare .., _, hq, _ => hq
  | .oneOf .., _, hq, _ => hq
  | .between .., _, hq, _ => hq
  | .other, _, hq, _ => hq

theorem mem_leavesOf_of_mem_conjunctsOf : ∀ ps : List Predicate, ∀ q ∈ conjunctsOf ps,
    q.column? ≠ none → q ∈ leavesOf ps
  | [], _, hq, _ => by cases hq
  | p :: rest, q, hq, hc => by
      rcases List.mem_append.1 hq with hq | hq
      · exact List.mem_append_left _ (mem_leaves_of_mem_conjuncts p q hq hc)
      · exact List.mem_append_right _ (mem_leavesOf_of_mem_conjunctsOf rest q hq hc)

end

theorem mem_leaves_of_column {p q : Predicate} (hq : q ∈ p.conjuncts) {c : ColumnRef}
    (hc : c ∈ q.column?) : q ∈ p.leaves :=
  mem_leaves_of_mem_conjuncts p q hq (Option.ne_none_iff_exists'.2 ⟨c, hc⟩)

end Predicate

namespace Condition

open Predicate

variable {rule : Rule} {t : TableRef} {parameters : List Value} {row : IntRow}

/-! ### Conjuncts -/

theorem isInt_rangeOf (op : Comparison) (m : Int64) : (rangeOf op (.int m)).IsInt := by
  have hopen := Bound.isIntOrOpen_unbounded
  have hincl := Bound.isIntOrOpen_inclusive m
  have hexcl := Bound.isIntOrOpen_exclusive m
  cases op with
  | eq => exact ⟨hincl, hincl⟩
  | ne => exact ⟨hincl, hincl⟩
  | lt => exact ⟨hopen, hexcl⟩
  | le => exact ⟨hopen, hincl⟩
  | gt => exact ⟨hexcl, hopen⟩
  | ge => exact ⟨hincl, hopen⟩

/-- The range of what compares with an integer holds the integers that do. -/
theorem meets_rangeOf {op : Comparison} {n m : Int64} (hop : op ≠ .ne) (h : op.Holds n m) :
    (Constraint.within (rangeOf op (.int m))).Meets n := by
  have hints := isInt_rangeOf op m
  refine ⟨hints, (Range.contains_int_iff hints n).2 ?_⟩
  cases op with
  | eq =>
      cases h
      exact ⟨Int.le_refl _, Int.le_refl _⟩
  | ne => exact absurd rfl hop
  | lt => exact ⟨trivial, h⟩
  | le => exact ⟨trivial, h⟩
  | gt => exact ⟨h, trivial⟩
  | ge => exact ⟨h, trivial⟩

/-- The integers between two bounds are in the closed range. -/
theorem meets_closed {n a b : Int64} (ha : a.toInt ≤ n.toInt) (hb : n.toInt ≤ b.toInt) :
    (Constraint.within (.closed (.int a) (.int b))).Meets n := by
  have hints := Range.isInt_closed a b
  exact ⟨hints, (Range.contains_int_iff hints n).2 ⟨ha, hb⟩⟩

theorem map_resolve_of_resolveAll? {exprs : List Expr} {vs : List Value}
    (h : resolveAll? parameters exprs = some vs) :
    exprs.map (Expr.resolve parameters) = vs.map some := by
  induction exprs generalizing vs with
  | nil =>
      cases h
      rfl
  | cons e rest ih =>
      rw [resolveAll?, List.mapM_cons] at h
      obtain ⟨v, hv, h⟩ := Option.bind_eq_some_iff.1 h
      obtain ⟨ws, hws, h⟩ := Option.bind_eq_some_iff.1 h
      cases h
      rw [List.map_cons, List.map_cons, hv, ih hws]

/-- Expressions that stand for integers only resolve to integers. -/
theorem exists_int_of_resolveAll? {exprs : List Expr} {vs : List Value}
    (hints : ∀ e ∈ exprs, ∀ v ∈ e.resolve parameters, ∃ n, v = .int n)
    (h : resolveAll? parameters exprs = some vs) : ∀ v ∈ vs, ∃ n, v = .int n := by
  intro v hv
  have hmem : some v ∈ exprs.map (Expr.resolve parameters) := by
    rw [map_resolve_of_resolveAll? h]
    exact List.mem_map_of_mem hv
  obtain ⟨e, he, hresolve⟩ := List.mem_map.1 hmem
  exact hints e he v hresolve

/-- **What is taken from a conjunct on integers is met by every integer of which it is true.** -/
theorem meets_of_constraintOf? {p : Predicate} {n : Int64} {c : Constraint} {markers : List Nat}
    (hints : ∀ e ∈ p.operands, ∀ v ∈ e.resolve parameters, ∃ n, v = .int n)
    (hp : p.LeafHolds parameters n) (hnegated : isNegated p = false)
    (hc : constraintOf? parameters p = some (c, markers)) : c.Meets n := by
  cases p with
  | compare column op right =>
      obtain ⟨v, hv, hc⟩ := Option.map_eq_some_iff.1 hc
      obtain ⟨m, rfl⟩ := hints right (List.mem_singleton.2 rfl) v hv
      have hop : op ≠ .ne := of_decide_eq_false hnegated
      have hholds := hp m hv
      simp only [Prod.mk.injEq] at hc
      rw [← hc.1]
      split
      · rename_i heq
        subst heq
        exact List.mem_singleton.2 (congrArg Value.int hholds)
      · exact meets_rangeOf hop hholds
  | oneOf column list negated =>
      obtain ⟨vs, hvs, hc⟩ := Option.map_eq_some_iff.1 hc
      -- all of the list was resolved, so that it is a list of integers
      have hmap := map_resolve_of_resolveAll? hvs
      obtain ⟨ms, rfl⟩ := Lists.exists_eq_map (exists_int_of_resolveAll? hints hvs)
      rw [List.map_map] at hmap
      cases hc
      exact List.mem_map_of_mem ((hp ms hmap).2 hnegated)
  | between column low high negated =>
      simp only [constraintOf?] at hc
      split at hc
      · rename_i v w hv hw
        cases hc
        obtain ⟨a, rfl⟩ := hints low (by simp [operands]) v hv
        obtain ⟨b, rfl⟩ := hints high (by simp [operands]) w hw
        obtain ⟨ha, hb⟩ := (hp a b hv hw).2 hnegated
        exact meets_closed ha hb
      · cases hc
  | and parts => cases hc
  | or parts => cases hc
  | other => cases hc

/-! ### Gathering -/

namespace Gathered

/-- A row meets everything that was gathered. -/
structure Sound (row : IntRow) (g : Gathered) : Prop where
  not_alwaysFalse : g.alwaysFalse = false
  meets : ∀ v ∈ g.values, v.constraint.Meets (row.at v.column)

theorem Sound.exclude {g : Gathered} (h : g.Sound row) (table column : String) :
    (g.exclude table column).Sound row := ⟨h.not_alwaysFalse, h.meets⟩

/-- Narrowing a constraint by another one that is met keeps all of them met. -/
theorem meets_narrow {table column : String} {c merged : Constraint} {markers : List Nat}
    {values narrowed : List ColumnConstraint} (hc : c.Meets (row.at column))
    (hvalues : ∀ v ∈ values, v.constraint.Meets (row.at v.column))
    (h : narrow table column c markers values = some (narrowed, merged)) :
    (∀ v ∈ narrowed, v.constraint.Meets (row.at v.column)) ∧ merged.Meets (row.at column) := by
  induction values generalizing narrowed with
  | nil => cases h
  | cons v rest ih =>
      obtain ⟨hv, hrest⟩ := List.forall_mem_cons.1 hvalues
      simp only [narrow] at h
      split at h
      · rename_i habout
        cases h
        have hsame := row.at_congr (Bool.and_eq_true_iff.1 habout).2
        have hmerged : (v.constraint.intersect c).Meets (row.at v.column) :=
          hv.intersect (hsame ▸ hc)
        exact ⟨List.forall_mem_cons.2 ⟨hmerged, hrest⟩, hsame ▸ hmerged⟩
      · obtain ⟨p, hp, heq⟩ := Option.map_eq_some_iff.1 h
        cases heq
        obtain ⟨hnarrowed, hmerged⟩ := ih hrest hp
        exact ⟨List.forall_mem_cons.2 ⟨hv, hnarrowed⟩, hmerged⟩

theorem Sound.add {g : Gathered} (h : g.Sound row) {table column : String} {c : Constraint}
    (markers : List Nat) (hc : c.Meets (row.at column)) :
    (g.add table column c markers).Sound row := by
  unfold Gathered.add
  split
  · rename_i values merged hnarrow
    obtain ⟨hvalues, hmerged⟩ := meets_narrow hc h.meets hnarrow
    exact ⟨by simp [h.not_alwaysFalse, hmerged.isEmpty], hvalues⟩
  · refine ⟨by simp [h.not_alwaysFalse, hc.isEmpty], fun v hv => ?_⟩
    rcases List.mem_append.1 hv with hv | hv
    · exact h.meets v hv
    · cases List.mem_singleton.1 hv
      exact hc

/-- What a conjunct says of its column is met when the conjunct is true. -/
theorem Sound.addConjunct {g : Gathered} (h : g.Sound row) {p : Predicate} {column : String}
    (table : String) (hints : ∀ e ∈ p.operands, ∀ v ∈ e.resolve parameters, ∃ n, v = .int n)
    (hp : isNegated p = false → p.LeafHolds parameters (row.at column)) :
    (addConjunct parameters p column g table).Sound row := by
  unfold Gathered.addConjunct
  split
  · exact h.exclude table column
  · rename_i hnegated
    have hnegated : isNegated p = false := by simpa using hnegated
    split
    · rename_i c markers hc
      exact h.add markers (meets_of_constraintOf? hints (hp hnegated) hnegated hc)
    · exact h

/-- The condition of what was gathered, if there is one, is met. -/
theorem Sound.conditions {g : Gathered} (h : g.Sound row) :
    g.conditions = [] ∨ ∃ c, g.conditions = [c] ∧ c.alwaysFalse = false ∧ c.MetBy row := by
  unfold Gathered.conditions
  rw [h.not_alwaysFalse, if_neg Bool.false_ne_true]
  simp only
  split
  · exact .inl rfl
  · exact .inr ⟨_, rfl, rfl, fun v hv => h.meets v (List.mem_of_mem_filter hv)⟩

end Gathered

/-! ### Tables -/

theorem mem_foldl_addName {refs : List TableRef} {names : List String} {name : String}
    (h : name ∈ refs.foldl Statement.addName names) :
    name ∈ names ∨ ∃ r ∈ refs, r.name = name := by
  induction refs generalizing names with
  | nil => exact .inl h
  | cons r rest ih =>
      rcases ih h with h | ⟨r', hr', rfl⟩
      · unfold Statement.addName at h
        split at h
        · exact .inl h
        · rcases List.mem_append.1 h with h | h
          · exact .inl h
          · exact .inr ⟨r, List.mem_cons_self .., (List.mem_singleton.1 h).symm⟩
      · exact .inr ⟨r', List.mem_cons_of_mem r hr', rfl⟩

/-- Every table among some is named, in some spelling. -/
theorem exists_mem_foldl_addName {refs : List TableRef} {ref : TableRef}
    (h : ref ∈ refs) :
    ∃ name ∈ refs.foldl Statement.addName [], Text.sameName name ref.name = true := by
  refine Lists.foldl_covers
    (P := fun names (ref : TableRef) => ∃ name ∈ names, Text.sameName name ref.name = true)
    ?_ ?_ [] ref h
  · intro names ref _
    rw [Statement.addName]
    split
    · rename_i hfound
      exact List.any_eq_true.1 hfound
    · exact ⟨ref.name, List.mem_append_right _ (List.mem_singleton.2 rfl), Text.sameName_refl _⟩
  · rintro names ref other ⟨name, hname, hother⟩
    refine ⟨name, ?_, hother⟩
    rw [Statement.addName]
    split
    · exact hname
    · exact List.mem_append_left _ hname

/-- A table that a column may belong to and that is spread by it is one of the statement. -/
theorem exists_spreadBy {tables : List TableRef} {column : ColumnRef} {name : String}
    (h : name ∈ shardedTablesOf rule tables column) :
    ∃ r ∈ tables, r.SpreadBy rule column ∧ r.name = name := by
  obtain ⟨hname, hcolumn⟩ := List.mem_filter.1 h
  rcases mem_foldl_addName hname with h | ⟨r, hr, rfl⟩
  · cases h
  · obtain ⟨hr, howner⟩ := List.mem_filter.1 hr
    refine ⟨r, hr, ⟨fun owner ho => ?_, hcolumn⟩, rfl⟩
    rw [Option.mem_def] at ho
    rw [ho] at howner
    exact howner

/-- A table of the statement that is spread by a column is found for the column. -/
theorem exists_mem_shardedTablesOf {tables : List TableRef} {column : ColumnRef}
    (ht : t ∈ tables) (hspread : t.SpreadBy rule column) :
    ∃ name, name ∈ shardedTablesOf rule tables column := by
  obtain ⟨howner, hcolumn⟩ := hspread
  have htable : ∃ name ∈ tablesOf rule tables column, Text.sameName name t.name = true := by
    unfold tablesOf
    refine exists_mem_foldl_addName (List.mem_filter.2 ⟨ht, ?_⟩)
    cases h : column.owner with
    | none => exact hcolumn
    | some owner => exact howner owner h
  obtain ⟨name, hname, hsame⟩ := htable
  refine ⟨name, List.mem_filter.2 ⟨hname, ?_⟩⟩
  rw [Rule.isShardingColumn, Rule.table?_congr hsame]
  exact hcolumn

theorem isSharded_of_spreadBy {column : ColumnRef} (h : t.SpreadBy rule column) :
    rule.isSharded t.name = true := by
  have hcolumn := h.2
  unfold Rule.isShardingColumn at hcolumn
  unfold Rule.isSharded
  cases ht : rule.table? t.name with
  | none => simp [ht] at hcolumn
  | some _ => rfl

/-! ### Predicates -/

/-- What a conjunct says of a column by which a table is spread is said with integers, and it is
true of the row unless it is negated. -/
def TrueOf (rule : Rule) (tables : List TableRef) (parameters : List Value) (row : IntRow)
    (p : Predicate) : Prop :=
  ∀ c ∈ p.column?, shardedTablesOf rule tables c ≠ [] →
    (∀ e ∈ p.operands, ∀ v ∈ e.resolve parameters, ∃ n, v = .int n) ∧
      (isNegated p = false → p.LeafHolds parameters (row.at c.name))

theorem Gathered.Sound.addPredicate {g : Gathered} (h : g.Sound row) {tables : List TableRef}
    {p : Predicate} (hp : TrueOf rule tables parameters row p) :
    (Gathered.addPredicate rule tables parameters g p).Sound row := by
  unfold Gathered.addPredicate
  cases hc : p.column? with
  | none => exact h
  | some column =>
      have hp := hp column hc
      simp only
      revert hp
      generalize shardedTablesOf rule tables column = names
      intro hp
      -- the conjunct is added for each table that the column may belong to
      induction names generalizing g with
      | nil => exact h
      | cons name names ih =>
          obtain ⟨hints, hholds⟩ := hp (List.cons_ne_nil name names)
          rw [List.foldl_cons]
          exact ih (h.addConjunct name hints hholds) fun _ => ⟨hints, hholds⟩

/-- **The condition of a predicate is met by every row of which its conjuncts are true.** -/
theorem ofWhere_of_conjuncts {tables : List TableRef} {predicate : Option Predicate}
    (h : ∀ p ∈ predicate, ∀ q ∈ p.conjuncts, TrueOf rule tables parameters row q) :
    ofWhere rule tables predicate parameters = [] ∨
      ∃ c, ofWhere rule tables predicate parameters = [c] ∧ c.alwaysFalse = false ∧
        c.MetBy row := by
  cases predicate with
  | none => exact .inl rfl
  | some p =>
      have hconjuncts := h p rfl
      rw [ofWhere]
      refine Gathered.Sound.conditions ?_
      -- the invariant of the fold over the conjuncts
      have hstart : Gathered.Sound row {} := ⟨rfl, fun v hv => by cases hv⟩
      revert hconjuncts hstart
      generalize ({} : Gathered) = g
      generalize p.conjuncts = conjuncts
      intro hconjuncts hstart
      induction conjuncts generalizing g with
      | nil => exact hstart
      | cons q rest ih =>
          exact ih _ (fun x hx => hconjuncts x (List.mem_cons_of_mem q hx))
            (hstart.addPredicate (hconjuncts q (List.mem_cons_self ..)))

theorem metBy_of_mem_head? {conditions : List Condition}
    (h : conditions = [] ∨ ∃ c, conditions = [c] ∧ c.alwaysFalse = false ∧ c.MetBy row) :
    ∀ c ∈ conditions.head?, c.MetBy row := by
  intro c hc
  rcases h with rfl | ⟨c', rfl, -, hmet⟩
  · cases hc
  · cases hc
    exact hmet

/-- A part of a predicate without parts of its own may be true when the predicate may be. -/
theorem leafMayHold_of_mayHold {p : Predicate} (h : p.MayHold rule t parameters row) :
    p.LeafMayHold rule t parameters row := by
  cases p with
  | and parts => exact fun c hc => by cases hc
  | or parts => exact fun c hc => by cases hc
  | compare column op right => exact h
  | oneOf column list negated => exact h
  | between column low high negated => exact h
  | other => exact h

/-- **The condition of a predicate is met by every row of which the predicate may be true.** -/
theorem ofWhere_spec {tables : List TableRef}
    (hsingle : ∀ r ∈ tables, rule.isSharded r.name = true → r = t) {predicate : Option Predicate}
    (hints : ∀ p ∈ predicate, p.IsOnInts rule t parameters)
    (hrow : ∀ p ∈ predicate, p.MayHold rule t parameters row) :
    ofWhere rule tables predicate parameters = [] ∨
      ∃ c, ofWhere rule tables predicate parameters = [c] ∧ c.alwaysFalse = false ∧
        c.MetBy row := by
  refine ofWhere_of_conjuncts fun p hp q hq c hc hne => ?_
  -- the column may belong to the one table that is spread only
  obtain ⟨name, hname⟩ := List.exists_mem_of_ne_nil _ hne
  obtain ⟨r, hr, hspread, -⟩ := exists_spreadBy hname
  cases hsingle r hr (isSharded_of_spreadBy hspread)
  have hholds := leafMayHold_of_mayHold (mayHold_of_mem_conjuncts p (hrow p hp) q hq)
  exact ⟨hints p hp q (mem_leaves_of_column hq hc) c hc hspread, fun _ => hholds c hc hspread⟩

end Condition

end ShardedSql
