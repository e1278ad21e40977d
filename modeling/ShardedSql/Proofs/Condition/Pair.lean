/-
**What a predicate says of two rows of one table.**

A statement may name a table twice, under two aliases, and look for pairs of its rows.  What its
condition says of a column of one row or of the other is gathered for the one table, so that it is
taken to be said of a single row.

Main definitions:

* `ShardedSql.TableRef.isAliasOf` — a column is written with the alias of a table;
* `ShardedSql.Predicate.TrueAt` — **a predicate is true of the integers in columns**;
* `ShardedSql.IntRow.pair` — the integers in the columns of two rows;
* `ShardedSql.Predicate.KeepsAll` — an integer meets all that is said of a column;
* `ShardedSql.Predicate.ListsValues` — a column is said to be one of some values;
* `ShardedSql.Predicate.Bars` — what is said of a column is passed over;
* `ShardedSql.Condition.Gathered.ofPair` — what is gathered of two rows.

Main results:

* `ShardedSql.Predicate.trueAt_of_mem_conjuncts` — the conjuncts of what is true are true;
* `ShardedSql.Predicate.keepsAll_iff` — **an integer meets all that is said of a column exactly when
  it meets the constraints on the column**;
* `ShardedSql.Condition.Gathered.alwaysFalse_ofPair` — **when it is noted that no row can meet what
  is said of two rows**.
-/

import ShardedSql.Proofs.Condition.Gathered

set_option relaxedAutoImplicit false
set_option autoImplicit false

namespace ShardedSql

/-! ### Truth -/

namespace Predicate

section

variable (parameters : List Value) (value : ColumnRef → Int64)

mutual

/-- A predicate is true of the integers in columns.  What is not looked into may be true. -/
def TrueAt : Predicate → Prop
  | .and parts => AllTrueAt parts
  | .or parts => AnyTrueAt parts
  | p => ∀ c ∈ p.column?, p.LeafHolds parameters (value c)

/-- All of some predicates are true. -/
def AllTrueAt : List Predicate → Prop
  | [] => True
  | p :: rest => p.TrueAt ∧ AllTrueAt rest

/-- One of some predicates is true. -/
def AnyTrueAt : List Predicate → Prop
  | [] => False
  | p :: rest => p.TrueAt ∨ AnyTrueAt rest

end

end

variable {parameters : List Value} {value : ColumnRef → Int64}

mutual

/-- The conjuncts of a predicate that is true are true. -/
theorem trueAt_of_mem_conjuncts : ∀ p : Predicate, p.TrueAt parameters value →
    ∀ q ∈ p.conjuncts, q.TrueAt parameters value
  | .and parts, h, q, hq => trueAt_of_mem_conjunctsOf parts h q hq
  | .or _, h, _, hq => by cases List.mem_singleton.1 hq; exact h
  | .compare .., h, _, hq => by cases List.mem_singleton.1 hq; exact h
  | .oneOf .., h, _, hq => by cases List.mem_singleton.1 hq; exact h
  | .between .., h, _, hq => by cases List.mem_singleton.1 hq; exact h
  | .other, h, _, hq => by cases List.mem_singleton.1 hq; exact h

theorem trueAt_of_mem_conjunctsOf : ∀ ps : List Predicate, AllTrueAt parameters value ps →
    ∀ q ∈ conjunctsOf ps, q.TrueAt parameters value
  | [], _, _, hq => by cases hq
  | p :: rest, h, q, hq => by
      rcases List.mem_append.1 hq with hq | hq
      · exact trueAt_of_mem_conjuncts p h.1 q hq
      · exact trueAt_of_mem_conjunctsOf rest h.2 q hq

end

/-- A part without parts of its own is true of the integer in its column. -/
theorem leafHolds_of_trueAt {p : Predicate} (h : p.TrueAt parameters value) {c : ColumnRef}
    (hc : c ∈ p.column?) : p.LeafHolds parameters (value c) := by
  cases p with
  | and parts => cases hc
  | or parts => cases hc
  | compare column op right => exact h c hc
  | oneOf column list negated => exact h c hc
  | between column low high negated => exact h c hc
  | other => cases hc

end Predicate

/-! ### Pairs of rows -/

/-- The column is written with the alias of a table. -/
def TableRef.isAliasOf (t : TableRef) (c : ColumnRef) : Bool :=
  t.alias?.any fun a => c.owner.any fun owner => Text.sameName a owner

/-- The integers in the columns of two rows: of the first one in those that are written with the
alias of a table, and of the second one in the others. -/
def IntRow.pair (first : TableRef) (row row' : IntRow) (c : ColumnRef) : Int64 :=
  if first.isAliasOf c then row.at c.name else row'.at c.name

namespace Predicate

section

variable (parameters : List Value)

/-- All columns are written with the alias of one of two tables, and all values that they are
compared with are integers. -/
structure IsOnPair (first second : TableRef) (p : Predicate) : Prop where
  columns : ∀ leaf ∈ p.leaves, ∀ c ∈ leaf.column?,
    first.isAliasOf c = true ∨ second.isAliasOf c = true
  ints : ∀ leaf ∈ p.leaves, ∀ e ∈ leaf.operands, ∀ v ∈ e.resolve parameters, ∃ n, v = .int n

/-- An integer meets what the conjuncts of a predicate say of a column of either row, apart from
those that are negated. -/
def KeepsAll (column : String) (m : Int64) (p : Predicate) : Prop :=
  ∀ q ∈ p.conjuncts, ∀ c ∈ q.column?, Text.sameName c.name column = true →
    Condition.isNegated q = false → q.LeafHolds parameters m

/-- A condition without parts says that its column is one of some values, all of which are
known. -/
def IsList : Predicate → Prop
  | .compare _ op right => op = .eq ∧ ∃ v, right.resolve parameters = some v
  | .oneOf _ list negated =>
      negated = false ∧ ∃ vs : List Value, list.map (Expr.resolve parameters) = vs.map some
  | _ => False

/-- Some conjunct of a predicate says that a column is one of some values. -/
def ListsValues (column : String) (p : Predicate) : Prop :=
  ∃ q ∈ p.conjuncts, ∃ c ∈ q.column?, Text.sameName c.name column = true ∧ q.IsList parameters

end

/-- What a predicate says of a column of a table is passed over, as a negated conjunct is about the
column.  Its names and those of the table are compared in lower case. -/
def Bars (t : TableRule) (table column : String) (p : Predicate) : Prop :=
  ∃ q ∈ p.conjuncts, ∃ c ∈ q.column?, Condition.isNegated q = true ∧
    t.isShardingColumn c.name = true ∧
    sameColumn t.logicTable column (Text.lowercase table) (Text.lowercase c.name) = true

end Predicate

namespace Condition

/-! ### Conjuncts -/

variable {parameters : List Value} {p : Predicate} {n m : Int64}

/-- The integers in the range of what compares with an integer are those that do. -/
theorem holds_of_meets_rangeOf {op : Comparison} (hop : op ≠ .ne)
    (h : (Constraint.within (rangeOf op (.int m))).Meets n) : op.Holds n m := by
  obtain ⟨habove, hbelow⟩ := (Range.contains_int_iff (isInt_rangeOf op m) n).1 h.2
  cases op with
  | eq => exact Int64.toInt_inj.1 (Int.le_antisymm hbelow habove)
  | ne => exact absurd rfl hop
  | lt => exact hbelow
  | le => exact hbelow
  | gt => exact habove
  | ge => exact habove

theorem resolveAll?_eq_some_iff {exprs : List Expr} {vs : List Value} :
    resolveAll? parameters exprs = some vs ↔
      exprs.map (Expr.resolve parameters) = vs.map some := by
  refine ⟨map_resolve_of_resolveAll?, fun h => ?_⟩
  induction exprs generalizing vs with
  | nil =>
      cases vs with
      | nil => rfl
      | cons v rest => cases h
  | cons e rest ih =>
      cases vs with
      | nil => cases h
      | cons v vs =>
          obtain ⟨hv, hvs⟩ := List.cons.inj h
          have hrest : rest.mapM (Expr.resolve parameters) = some vs := ih hvs
          rw [resolveAll?, List.mapM_cons, hv, hrest]
          rfl

/-- **A conjunct is true of an integer exactly when the integer meets what is taken from it.** -/
theorem leafHolds_iff (hints : ∀ e ∈ p.operands, ∀ v ∈ e.resolve parameters, ∃ k, v = .int k)
    (hnegated : isNegated p = false) :
    p.LeafHolds parameters n ↔ ∀ k ∈ constraintOf? parameters p, k.1.Meets n := by
  refine ⟨fun hp k hk => meets_of_constraintOf? hints hp hnegated hk, fun h => ?_⟩
  cases p with
  | compare column op right =>
      intro m hm
      have hop : op ≠ .ne := of_decide_eq_false hnegated
      have hmeets := h _ (by rw [constraintOf?, hm]; rfl)
      simp only at hmeets
      split at hmeets
      · rename_i heq
        subst heq
        cases List.mem_singleton.1 hmeets
        rfl
      · exact holds_of_meets_rangeOf hop hmeets
  | oneOf column list negated =>
      intro ms hms
      have hresolve : resolveAll? parameters list = some (ms.map Value.int) := by
        rw [resolveAll?_eq_some_iff, hms, List.map_map]
        rfl
      have hmeets := h _ (by rw [constraintOf?, hresolve]; rfl)
      obtain ⟨m, hm, hsame⟩ := List.mem_map.1 hmeets
      cases hsame
      exact iff_of_true hm hnegated
  | between column low high negated =>
      intro a b ha hb
      have hmeets := h _ (by simp only [constraintOf?, ha, hb]; rfl)
      exact iff_of_true ((Range.contains_int_iff (Range.isInt_closed a b) n).1 hmeets.2) hnegated
  | and parts => trivial
  | or parts => trivial
  | other => trivial

/-- **A conjunct says that its column is one of some values exactly when a list is taken from
it.** -/
theorem isList_iff (hnegated : isNegated p = false) :
    p.IsList parameters ↔ ∃ k ∈ constraintOf? parameters p, k.1.range? = none := by
  cases p with
  | compare column op right =>
      constructor
      · rintro ⟨rfl, v, hv⟩
        exact ⟨_, by rw [constraintOf?, hv]; rfl, rfl⟩
      · rintro ⟨k, hk, hrange⟩
        obtain ⟨v, hv, rfl⟩ := Option.map_eq_some_iff.1 hk
        refine ⟨?_, v, hv⟩
        by_contra hop
        simp only [if_neg hop] at hrange
        cases hrange
  | oneOf column list negated =>
      constructor
      · rintro ⟨-, vs, hvs⟩
        exact ⟨_, by rw [constraintOf?, resolveAll?_eq_some_iff.2 hvs]; rfl, rfl⟩
      · rintro ⟨k, hk, -⟩
        obtain ⟨vs, hvs, -⟩ := Option.map_eq_some_iff.1 hk
        exact ⟨hnegated, vs, map_resolve_of_resolveAll? hvs⟩
  | between column low high negated =>
      refine ⟨False.elim, ?_⟩
      rintro ⟨k, hk, hrange⟩
      simp only [constraintOf?] at hk
      split at hk
      · cases hk
        cases hrange
      · cases hk
  | and parts => exact iff_of_false id (by rintro ⟨k, hk, -⟩; cases hk)
  | or parts => exact iff_of_false id (by rintro ⟨k, hk, -⟩; cases hk)
  | other => exact iff_of_false id (by rintro ⟨k, hk, -⟩; cases hk)

/-! ### Tables -/

section

variable {rule : Rule} {t : TableRule} {first second : TableRef} {c : ColumnRef} {name : String}

/-- A table that a column may belong to and that is spread by it is the one that is named twice. -/
theorem sameName_of_mem_shardedTablesOf (ht : rule.table? first.name = some t)
    (hsame : Text.sameName first.name second.name = true)
    (hname : name ∈ shardedTablesOf rule [first, second] c) :
    Text.sameName name first.name = true ∧ t.isShardingColumn c.name = true := by
  obtain ⟨ref, href, hspread, rfl⟩ := exists_spreadBy hname
  have href : Text.sameName ref.name first.name = true := by
    rcases List.mem_cons.1 href with rfl | href
    · exact Text.sameName_refl _
    · rw [List.mem_singleton.1 href, Text.sameName_comm, hsame]
  have hcolumn := hspread.2
  rw [Rule.isShardingColumn, Rule.table?_congr href, ht, Option.any_some] at hcolumn
  exact ⟨href, hcolumn⟩

/-- A column that is written with one of the aliases is found to belong to the table that is named
twice, if the table is spread by it. -/
theorem exists_mem_shardedTablesOf_pair (ht : rule.table? first.name = some t)
    (hsame : Text.sameName first.name second.name = true)
    (halias : first.isAliasOf c = true ∨ second.isAliasOf c = true)
    (hcolumn : t.isShardingColumn c.name = true) :
    ∃ name, name ∈ shardedTablesOf rule [first, second] c := by
  have hspread {ref : TableRef} (href : rule.table? ref.name = some t)
      (h : ref.isAliasOf c = true) : ref.SpreadBy rule c := by
    refine ⟨fun owner howner => ?_, by rwa [Rule.isShardingColumn, href]⟩
    obtain ⟨name, hname, h⟩ := (Option.any_eq_true _ _).1 h
    rw [Option.mem_def.1 howner, Option.any_some] at h
    rw [TableRef.isCalled, hname, Option.any_some, h, Bool.or_true]
  rcases halias with h | h
  · exact exists_mem_shardedTablesOf (List.mem_cons_self ..) (hspread ht h)
  · exact exists_mem_shardedTablesOf (List.mem_cons_of_mem _ (List.mem_singleton.2 rfl))
      (hspread (Rule.table?_congr hsame ▸ ht) h)

end

/-! ### What is gathered -/

/-- The clues of a predicate on two rows of one table. -/
def Clue.ofPair (rule : Rule) (first second : TableRef) (parameters : List Value)
    (p : Predicate) : List Clue :=
  p.conjuncts.flatMap (Clue.ofPredicate rule [first, second] parameters)

/-- What is gathered from them. -/
def Gathered.ofPair (rule : Rule) (first second : TableRef) (parameters : List Value)
    (p : Predicate) : Gathered :=
  (Clue.ofPair rule first second parameters p).foldl Clue.apply {}

section

open Predicate

variable {rule : Rule} {t : TableRule} {first second : TableRef} {column : String}
  {row row' : IntRow}

/-- A clue is taken from a conjunct about a column by which the table is spread. -/
theorem Clue.mem_ofPair_iff {x : Clue} :
    x ∈ ofPair rule first second parameters p ↔ ∃ q ∈ p.conjuncts, ∃ c ∈ q.column?,
      ∃ name ∈ shardedTablesOf rule [first, second] c,
        ofConjunct? parameters q c.name name = some x := by
  rw [ofPair, List.mem_flatMap]
  refine exists_congr fun q => and_congr_right fun _ => ?_
  unfold ofPredicate
  cases q.column? with
  | none => exact ⟨fun h => (by cases h), fun ⟨c, hc, _⟩ => by cases hc⟩
  | some c =>
      rw [List.mem_filterMap]
      exact ⟨fun h => ⟨c, rfl, h⟩, fun ⟨c', hc', h⟩ => by cases hc'; exact h⟩

/-- **The constraints on a column are those of the conjuncts about it that are not negated.** -/
theorem Clue.mem_constraints_iff (ht : rule.table? first.name = some t)
    (hsame : Text.sameName first.name second.name = true)
    (hpair : p.IsOnPair parameters first second) {table : String} {d : Constraint} :
    d ∈ (ofPair rule first second parameters p).filterMap (constraintOn? table column) ↔
      Text.sameName first.name table = true ∧ ∃ q ∈ p.conjuncts, ∃ c ∈ q.column?,
        Text.sameName c.name column = true ∧ t.isShardingColumn c.name = true ∧
          isNegated q = false ∧ ∃ markers, constraintOf? parameters q = some (d, markers) := by
  rw [List.mem_filterMap]
  constructor
  · rintro ⟨x, hx, hd⟩
    obtain ⟨q, hq, c, hc, name, hname, hclue⟩ := mem_ofPair_iff.1 hx
    obtain ⟨hnamed, hcolumn⟩ := sameName_of_mem_shardedTablesOf ht hsame hname
    cases hnegated : isNegated q with
    | true =>
        rw [ofConjunct?, hnegated, if_pos rfl] at hclue
        cases hclue
        cases hd
    | false =>
        rw [ofConjunct?, hnegated, if_neg Bool.false_ne_true] at hclue
        obtain ⟨k, hk, rfl⟩ := Option.map_eq_some_iff.1 hclue
        simp only [constraintOn?, Option.ite_none_right_eq_some, Option.some.injEq] at hd
        obtain ⟨habout, rfl⟩ := hd
        rw [sameColumn_iff] at habout
        exact ⟨Text.sameName_trans (Text.sameName_comm .. ▸ hnamed) habout.1, q, hq, c, hc,
          habout.2, hcolumn, hnegated, k.2, hk⟩
  · rintro ⟨htable, q, hq, c, hc, hname, hcolumn, hnegated, markers, hk⟩
    obtain ⟨name, hmem⟩ := exists_mem_shardedTablesOf_pair ht hsame
      (hpair.columns q (mem_leaves_of_column hq hc) c hc) hcolumn
    have hnamed := (sameName_of_mem_shardedTablesOf ht hsame hmem).1
    refine ⟨.constrained name c.name d markers,
      mem_ofPair_iff.2 ⟨q, hq, c, hc, name, hmem, ?_⟩, ?_⟩
    · rw [ofConjunct?, hnegated, if_neg Bool.false_ne_true, hk]
      rfl
    · exact if_pos (sameColumn_iff.2 ⟨Text.sameName_trans hnamed htable, hname⟩)

/-- A column of the table is barred when a negated conjunct, in lower case, is about it. -/
theorem Gathered.bars_ofPair (ht : rule.table? first.name = some t)
    (hsame : Text.sameName first.name second.name = true)
    (hpair : p.IsOnPair parameters first second) :
    (ofPair rule first second parameters p).bars t.logicTable column = true ↔
      p.Bars t first.name column := by
  rw [ofPair, bars_foldl, List.any_eq_true]
  constructor
  · rintro ⟨x, hx, hbars⟩
    obtain ⟨q, hq, c, hc, name, hname, hclue⟩ := Clue.mem_ofPair_iff.1 hx
    obtain ⟨hnamed, hcolumn⟩ := sameName_of_mem_shardedTablesOf ht hsame hname
    cases hnegated : isNegated q with
    | false =>
        rw [Clue.ofConjunct?, hnegated, if_neg Bool.false_ne_true] at hclue
        obtain ⟨k, -, rfl⟩ := Option.map_eq_some_iff.1 hclue
        cases hbars
    | true =>
        rw [Clue.ofConjunct?, hnegated, if_pos rfl] at hclue
        cases hclue
        rw [Clue.bars, Text.lowercase_eq_of_sameName hnamed] at hbars
        exact ⟨q, hq, c, hc, hnegated, hcolumn, hbars⟩
  · rintro ⟨q, hq, c, hc, hnegated, hcolumn, hbars⟩
    obtain ⟨name, hmem⟩ := exists_mem_shardedTablesOf_pair ht hsame
      (hpair.columns q (mem_leaves_of_column hq hc) c hc) hcolumn
    have hnamed := (sameName_of_mem_shardedTablesOf ht hsame hmem).1
    refine ⟨.unusable name c.name, Clue.mem_ofPair_iff.2 ⟨q, hq, c, hc, name, hmem, ?_⟩, ?_⟩
    · rw [Clue.ofConjunct?, hnegated, if_pos rfl]
    · rw [Clue.bars, Text.lowercase_eq_of_sameName hnamed]
      exact hbars

/-- The clues are about integers. -/
theorem Clue.isOnInts_ofPair (hpair : p.IsOnPair parameters first second) :
    ∀ x ∈ ofPair rule first second parameters p, x.IsOnInts := by
  intro x hx
  obtain ⟨q, hq, c, hc, name, -, hclue⟩ := mem_ofPair_iff.1 hx
  unfold ofConjunct? at hclue
  split at hclue
  · cases hclue
    trivial
  · obtain ⟨k, hk, rfl⟩ := Option.map_eq_some_iff.1 hclue
    exact isOnInts_of_constraintOf? (hpair.ints q (mem_leaves_of_column hq hc)) hk

end

end Condition

namespace Predicate

open Condition

variable {rule : Rule} {t : TableRule} {first second : TableRef} {parameters : List Value}
  {p : Predicate} {column : String} {row row' : IntRow}

/-! ### Columns of the table -/

theorem isShardingColumn_of_sameName {name : String} (hcolumn : column ∈ t.shardingColumns)
    (h : Text.sameName name column = true) : t.isShardingColumn name = true :=
  List.any_eq_true.2 ⟨column, hcolumn, Text.sameName_comm .. ▸ h⟩

/-- **An integer meets all that is said of a column exactly when it meets the constraints on the
column.** -/
theorem keepsAll_iff (ht : rule.table? first.name = some t)
    (hsame : Text.sameName first.name second.name = true)
    (hpair : p.IsOnPair parameters first second) (hcolumn : column ∈ t.shardingColumns)
    {m : Int64} :
    p.KeepsAll parameters column m ↔ ∀ d ∈ (Clue.ofPair rule first second parameters p).filterMap
      (Clue.constraintOn? first.name column), d.Meets m := by
  constructor
  · intro h d hd
    obtain ⟨-, q, hq, c, hc, hname, -, hnegated, markers, hk⟩ :=
      (Clue.mem_constraints_iff ht hsame hpair).1 hd
    have hints := hpair.ints q (mem_leaves_of_column hq hc)
    exact (leafHolds_iff hints hnegated).1 (h q hq c hc hname hnegated) _ hk
  · intro h q hq c hc hname hnegated
    have hints := hpair.ints q (mem_leaves_of_column hq hc)
    refine (leafHolds_iff hints hnegated).2 fun k hk => h k.1 ?_
    exact (Clue.mem_constraints_iff ht hsame hpair).2 ⟨Text.sameName_refl _, q, hq, c, hc, hname,
      isShardingColumn_of_sameName hcolumn hname, hnegated, k.2, hk⟩

theorem IsList.isNegated (h : p.IsList parameters) : isNegated p = false := by
  cases p with
  | compare column op right =>
      obtain ⟨rfl, -⟩ := h
      rfl
  | oneOf column list negated => exact h.1
  | _ => exact h.elim

/-- A column is said to be one of some values exactly when one of the constraints on it is a
list. -/
theorem listsValues_iff (ht : rule.table? first.name = some t)
    (hsame : Text.sameName first.name second.name = true)
    (hpair : p.IsOnPair parameters first second) (hcolumn : column ∈ t.shardingColumns) :
    p.ListsValues parameters column ↔
      ∃ d ∈ (Clue.ofPair rule first second parameters p).filterMap
        (Clue.constraintOn? first.name column), d.range? = none := by
  constructor
  · rintro ⟨q, hq, c, hc, hname, hlist⟩
    obtain ⟨k, hk, hrange⟩ := (isList_iff hlist.isNegated).1 hlist
    exact ⟨k.1, (Clue.mem_constraints_iff ht hsame hpair).2 ⟨Text.sameName_refl _, q, hq, c, hc,
      hname, isShardingColumn_of_sameName hcolumn hname, hlist.isNegated, k.2, hk⟩, hrange⟩
  · rintro ⟨d, hd, hrange⟩
    obtain ⟨-, q, hq, c, hc, hname, -, hnegated, markers, hk⟩ :=
      (Clue.mem_constraints_iff ht hsame hpair).1 hd
    exact ⟨q, hq, c, hc, hname, (isList_iff hnegated).2 ⟨_, hk, hrange⟩⟩

/-- **Each constraint on a column is met by one of the two rows** of which the predicate is true. -/
theorem meets_of_trueAt (ht : rule.table? first.name = some t)
    (hsame : Text.sameName first.name second.name = true)
    (hpair : p.IsOnPair parameters first second)
    (htrue : p.TrueAt parameters (IntRow.pair first row row')) :
    ∀ d ∈ (Clue.ofPair rule first second parameters p).filterMap
      (Clue.constraintOn? first.name column), d.Meets (row.at column) ∨
        d.Meets (row'.at column) := by
  intro d hd
  obtain ⟨-, q, hq, c, hc, hname, -, hnegated, markers, hk⟩ :=
    (Clue.mem_constraints_iff ht hsame hpair).1 hd
  have hints := hpair.ints q (mem_leaves_of_column hq hc)
  have hmeets := (leafHolds_iff hints hnegated).1
    (leafHolds_of_trueAt (trueAt_of_mem_conjuncts p htrue q hq) hc) _ hk
  rw [← row.at_congr hname, ← row'.at_congr hname]
  rw [IntRow.pair] at hmeets
  split at hmeets
  · exact .inl hmeets
  · exact .inr hmeets

end Predicate

namespace Condition.Gathered

open Constraint (Joins)
open Predicate

variable {rule : Rule} {t : TableRule} {first second : TableRef} {parameters : List Value}
  {p : Predicate} {row row' : IntRow}

/-- What is known of a column when something is said of it: an integer meets it exactly when it
meets all that is said, and it is a range unless the column is said to be one of some values. -/
theorem known_ofPair (ht : rule.table? first.name = some t)
    (hsame : Text.sameName first.name second.name = true)
    (hpair : p.IsOnPair parameters first second)
    (htrue : p.TrueAt parameters (IntRow.pair first row row')) {column : String}
    (hcolumn : column ∈ t.shardingColumns) {k : Constraint}
    (hk : (ofPair rule first second parameters p).known first.name column = some k) :
    ∃ ks, Joins ks k ∧ (∀ d ∈ ks, d.Meets (row.at column) ∨ d.Meets (row'.at column)) ∧
      (∀ m, k.Meets m ↔ p.KeepsAll parameters column m) ∧
      (k.range?.isSome = true ↔ ¬ p.ListsValues parameters column) := by
  have hjoins := (known_foldl (Clue.isOnInts_ofPair hpair) first.name column).2 k hk
  refine ⟨_, hjoins, meets_of_trueAt ht hsame hpair htrue, fun m => ?_, ?_⟩
  · rw [hjoins.meets, keepsAll_iff ht hsame hpair hcolumn]
  · rw [hjoins.range, listsValues_iff ht hsame hpair hcolumn]
    simp only [not_exists, not_and, Option.isSome_iff_ne_none, ne_eq]

/-- Of a column of which nothing is known nothing is said. -/
theorem keepsAll_of_known_eq_none (ht : rule.table? first.name = some t)
    (hsame : Text.sameName first.name second.name = true)
    (hpair : p.IsOnPair parameters first second) {column : String}
    (hcolumn : column ∈ t.shardingColumns)
    (hnone : (ofPair rule first second parameters p).known first.name column = none) (m : Int64) :
    p.KeepsAll parameters column m := by
  have hempty := (known_foldl (Clue.isOnInts_ofPair hpair) first.name column).1.1 hnone
  rw [keepsAll_iff ht hsame hpair hcolumn, hempty]
  exact fun d hd => by cases hd

/-- Nothing is known of tables with other names. -/
theorem known_ofPair_of_other (ht : rule.table? first.name = some t)
    (hsame : Text.sameName first.name second.name = true)
    (hpair : p.IsOnPair parameters first second) {table : String}
    (hother : Text.sameName first.name table = false) (column : String) :
    (ofPair rule first second parameters p).known table column = none := by
  refine (known_foldl (Clue.isOnInts_ofPair hpair) table column).1.2 ?_
  refine List.eq_nil_iff_forall_not_mem.2 fun d hd => ?_
  rw [((Clue.mem_constraints_iff ht hsame hpair).1 hd).1] at hother
  cases hother

/-- **It is noted that no row can meet what is said of two rows exactly when no integer meets all
that is said of some column** by which the table is spread. -/
theorem alwaysFalse_ofPair (ht : rule.table? first.name = some t)
    (hsame : Text.sameName first.name second.name = true)
    (hpair : p.IsOnPair parameters first second)
    (htrue : p.TrueAt parameters (IntRow.pair first row row')) :
    (ofPair rule first second parameters p).alwaysFalse = false ↔
      ∀ column ∈ t.shardingColumns, ∃ m, p.KeepsAll parameters column m := by
  have hints : ∀ x ∈ Clue.ofPair rule first second parameters p, x.IsOnInts :=
    Clue.isOnInts_ofPair hpair
  constructor
  · intro hfalse column hcolumn
    cases hk : (ofPair rule first second parameters p).known first.name column with
    | none => exact ⟨0, keepsAll_of_known_eq_none ht hsame hpair hcolumn hk 0⟩
    | some k =>
        obtain ⟨ks, hjoins, hown, hmeets, -⟩ := known_ofPair ht hsame hpair htrue hcolumn hk
        have hempty : k.isEmpty = false := by
          by_contra hempty
          rw [Bool.not_eq_false] at hempty
          have hnoted := (alwaysFalse_foldl_iff hints).2 ⟨first.name, column, k, hk, hempty⟩
          exact Bool.false_ne_true (hfalse.symm.trans hnoted)
        exact ((hjoins.isEmpty_eq_false_iff hown).1 hempty).imp fun m hm => (hmeets m).1 hm
  · intro hkept
    by_contra hnoted
    rw [Bool.not_eq_false] at hnoted
    obtain ⟨table, column, k, hk, hempty⟩ := (alwaysFalse_foldl_iff hints).1 hnoted
    -- something is said of the column, so that it is one of the table in some spelling
    have hne := mt (known_foldl hints table column).1.2 (by rw [hk]; exact Option.some_ne_none k)
    obtain ⟨d, hd⟩ := List.exists_mem_of_ne_nil _ hne
    obtain ⟨htable, q, -, c, -, hname, hsharding, -⟩ :=
      (Clue.mem_constraints_iff ht hsame hpair).1 hd
    obtain ⟨spelled, hspelled, hcase⟩ := List.any_eq_true.1 hsharding
    have hknown : (ofPair rule first second parameters p).known first.name spelled = some k :=
      (ColumnConstraint.knownIn_congr
        (sameColumn_iff.2 ⟨htable, Text.sameName_trans hcase hname⟩)).trans hk
    obtain ⟨ks, hjoins, hown, hmeets, -⟩ := known_ofPair ht hsame hpair htrue hspelled hknown
    obtain ⟨m, hm⟩ := hkept spelled hspelled
    have hmeetable := (hjoins.isEmpty_eq_false_iff hown).2 ⟨m, (hmeets m).2 hm⟩
    exact Bool.false_ne_true (hmeetable.symm.trans hempty)

end Condition.Gathered

end ShardedSql
