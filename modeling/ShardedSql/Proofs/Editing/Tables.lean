/-
**Which qualifiers are renamed with their tables.**

A column may be qualified by the name of its table, and where the table is sharded the qualifier has
to be replaced like the table.  That every such qualifier is replaced fails: the columns of a
condition, at any depth, and of the select list are looked at, but those that values are assigned to
are not, and a shard is sent a statement whose assignments name a table that it does not have.  It
fails the other way round too, as a qualifier that is the alias of one table and the name of another
one is replaced.

What holds is proved for every rule and every statement: all qualifiers in the condition and in the
select list that are the name of a sharded table are replaced, and besides the tables themselves
nothing else is.

Main definitions:

* `ShardedSql.Predicate.HasColumn` — a column stands in a condition, at any depth;
* `ShardedSql.Statement.Qualifies` — **a qualifier stands at a place of a clause**.

Main results:

* `ShardedSql.Predicate.hasColumn_iff` — the columns of a condition are those of its leaves;
* `ShardedSql.Editing.mem_owners_iff` — the qualifiers that are looked at;
* `ShardedSql.Editing.tables_spec` — **the qualifiers that are replaced**;
* `ShardedSql.Editing.tables_of_assignment_and_alias` — one that is not, and one that should not be.
-/

import ShardedSql.Editing.Tables
import ShardedSql.Proofs.Physical
import ShardedSql.Proofs.Routing.Single

set_option relaxedAutoImplicit false
set_option autoImplicit false

namespace ShardedSql

/-! ### Columns of a condition -/

namespace Predicate

/-- A column stands in a condition, however deep. -/
inductive HasColumn (c : ColumnRef) : Predicate → Prop where
  | compare {op : Comparison} {right : Expr} : HasColumn c (.compare c op right)
  | oneOf {list : List Expr} {negated : Bool} : HasColumn c (.oneOf c list negated)
  | between {low high : Expr} {negated : Bool} : HasColumn c (.between c low high negated)
  | and {p : Predicate} {parts : List Predicate} (hp : p ∈ parts) (h : HasColumn c p) :
      HasColumn c (.and parts)
  | or {p : Predicate} {parts : List Predicate} (hp : p ∈ parts) (h : HasColumn c p) :
      HasColumn c (.or parts)

variable {c : ColumnRef}

theorem mem_leavesOf_of_mem {p leaf : Predicate} {parts : List Predicate} (hp : p ∈ parts)
    (hleaf : leaf ∈ p.leaves) : leaf ∈ leavesOf parts := by
  rw [leavesOf_eq_flatMap]
  exact List.mem_flatMap.2 ⟨p, hp, hleaf⟩

theorem HasColumn.exists_leaf {p : Predicate} (h : p.HasColumn c) :
    ∃ leaf ∈ p.leaves, leaf.column? = some c := by
  induction h with
  | compare => exact ⟨_, List.mem_singleton.2 rfl, rfl⟩
  | oneOf => exact ⟨_, List.mem_singleton.2 rfl, rfl⟩
  | between => exact ⟨_, List.mem_singleton.2 rfl, rfl⟩
  | and hp _ ih =>
      obtain ⟨leaf, hleaf, hcolumn⟩ := ih
      exact ⟨leaf, mem_leavesOf_of_mem hp hleaf, hcolumn⟩
  | or hp _ ih =>
      obtain ⟨leaf, hleaf, hcolumn⟩ := ih
      exact ⟨leaf, mem_leavesOf_of_mem hp hleaf, hcolumn⟩

mutual

/-- The column of a leaf stands in the condition. -/
theorem hasColumn_of_mem_leaves : ∀ p : Predicate, ∀ leaf ∈ p.leaves, leaf.column? = some c →
    p.HasColumn c
  | .and parts, leaf, hleaf, hcolumn => by
      obtain ⟨p, hp, h⟩ := exists_hasColumn_of_mem_leavesOf parts leaf hleaf hcolumn
      exact .and hp h
  | .or parts, leaf, hleaf, hcolumn => by
      obtain ⟨p, hp, h⟩ := exists_hasColumn_of_mem_leavesOf parts leaf hleaf hcolumn
      exact .or hp h
  | .compare .., leaf, hleaf, hcolumn => by
      cases List.mem_singleton.1 hleaf
      cases hcolumn
      exact .compare
  | .oneOf .., leaf, hleaf, hcolumn => by
      cases List.mem_singleton.1 hleaf
      cases hcolumn
      exact .oneOf
  | .between .., leaf, hleaf, hcolumn => by
      cases List.mem_singleton.1 hleaf
      cases hcolumn
      exact .between
  | .other, leaf, hleaf, hcolumn => by
      cases List.mem_singleton.1 hleaf
      cases hcolumn

theorem exists_hasColumn_of_mem_leavesOf : ∀ ps : List Predicate, ∀ leaf ∈ leavesOf ps,
    leaf.column? = some c → ∃ p ∈ ps, p.HasColumn c
  | [], _, hleaf, _ => by cases hleaf
  | p :: rest, leaf, hleaf, hcolumn => by
      rcases List.mem_append.1 hleaf with hleaf | hleaf
      · exact ⟨p, List.mem_cons_self, hasColumn_of_mem_leaves p leaf hleaf hcolumn⟩
      · obtain ⟨q, hq, h⟩ := exists_hasColumn_of_mem_leavesOf rest leaf hleaf hcolumn
        exact ⟨q, List.mem_cons_of_mem p hq, h⟩

end

/-- **The columns of a condition are those of its leaves.** -/
theorem hasColumn_iff {p : Predicate} :
    p.HasColumn c ↔ ∃ leaf ∈ p.leaves, leaf.column? = some c :=
  ⟨HasColumn.exists_leaf, fun ⟨leaf, hleaf, hcolumn⟩ =>
    hasColumn_of_mem_leaves p leaf hleaf hcolumn⟩

end Predicate

/-! ### Qualifiers of a statement -/

/-- Where a statement may have columns with a qualifier. -/
inductive Clause where
  | condition
  | selectList
  /-- What an update assigns, or an insertion with `SET`. -/
  | assignments
  /-- What an insertion assigns on a duplicate key. -/
  | onDuplicate
  deriving Repr, DecidableEq

/-- The clause is one of those whose qualifiers are looked at. -/
def Clause.isSearched : Clause → Bool
  | .condition => true
  | .selectList => true
  | .assignments => false
  | .onDuplicate => false

/-- A column has a qualifier at a place. -/
def ColumnRef.IsQualified (c : ColumnRef) (owner : String) (start : Nat) : Prop :=
  c.owner = some owner ∧ c.start = start

/-- A qualifier stands at a place of a clause. -/
inductive Statement.Qualifies (owner : String) (start : Nat) : Clause → Statement → Prop where
  | condition {s : Statement} {p : Predicate} {c : ColumnRef} (hp : s.condition? = some p)
      (hc : p.HasColumn c) (h : c.IsQualified owner start) : Qualifies owner start .condition s
  | column {s : Select} {name : String} {alias? : Option String} {stop : Nat}
      (h : .column (some owner) name alias? start stop ∈ s.projections.items) :
      Qualifies owner start .selectList (.select s)
  | star {s : Select} {stop : Nat} (h : .star (some owner) start stop ∈ s.projections.items) :
      Qualifies owner start .selectList (.select s)
  | update {u : Update} {a : Assignment} (ha : a ∈ u.assignments)
      (h : a.column.IsQualified owner start) : Qualifies owner start .assignments (.update u)
  | insert {i : Insert} {c : SetClause} {a : Assignment} (hc : i.set = some c)
      (ha : a ∈ c.assignments) (h : a.column.IsQualified owner start) :
      Qualifies owner start .assignments (.insert i)
  | onDuplicate {i : Insert} {a : Assignment} (ha : a ∈ i.onDuplicate)
      (h : a.column.IsQualified owner start) : Qualifies owner start .onDuplicate (.insert i)

namespace Editing

theorem mem_predicateOwners_iff {p : Predicate} {owner : String} {start : Nat} :
    (owner, start) ∈ predicateOwners p ↔ ∃ c, p.HasColumn c ∧ c.IsQualified owner start := by
  rw [predicateOwners, List.mem_filterMap]
  constructor
  · rintro ⟨leaf, hleaf, h⟩
    obtain ⟨c, hcolumn, h⟩ := Option.bind_eq_some_iff.1 h
    obtain ⟨o, howner, h⟩ := Option.map_eq_some_iff.1 h
    cases h
    exact ⟨c, Predicate.hasColumn_iff.2 ⟨leaf, hleaf, hcolumn⟩, howner, rfl⟩
  · rintro ⟨c, hc, howner, rfl⟩
    obtain ⟨leaf, hleaf, hcolumn⟩ := Predicate.hasColumn_iff.1 hc
    exact ⟨leaf, hleaf, by rw [hcolumn, Option.bind_some, howner]; rfl⟩

theorem projectionOwner?_eq_some_iff {p : Projection} {owner : String} {start : Nat} :
    projectionOwner? p = some (owner, start) ↔
      (∃ name alias? stop, p = .column (some owner) name alias? start stop) ∨
        ∃ stop, p = .star (some owner) start stop := by
  cases p <;> simp [projectionOwner?]

/-- **The qualifiers that are looked at** are those of the condition and of the select list. -/
theorem mem_owners_iff {s : Statement} {owner : String} {start : Nat} :
    (owner, start) ∈ owners s ↔
      ∃ clause, clause.isSearched = true ∧ s.Qualifies owner start clause := by
  unfold owners
  rw [List.mem_append]
  constructor
  · rintro (h | h)
    · cases hp : s.condition? with
      | none => simp [hp] at h
      | some p =>
          rw [hp, Option.map_some, Option.getD_some] at h
          obtain ⟨c, hc, hqualified⟩ := mem_predicateOwners_iff.1 h
          exact ⟨.condition, rfl, .condition hp hc hqualified⟩
    · cases s with
      | select s =>
          obtain ⟨p, hp, h⟩ := List.mem_filterMap.1 h
          rcases projectionOwner?_eq_some_iff.1 h with ⟨name, alias?, stop, rfl⟩ | ⟨stop, rfl⟩
          · exact ⟨.selectList, rfl, .column hp⟩
          · exact ⟨.selectList, rfl, .star hp⟩
      | _ => cases h
  · rintro ⟨clause, hsearched, h⟩
    cases h with
    | condition hp hc h =>
        rw [hp]
        exact .inl (mem_predicateOwners_iff.2 ⟨_, hc, h⟩)
    | column h => exact .inr (List.mem_filterMap.2 ⟨_, h, rfl⟩)
    | star h => exact .inr (List.mem_filterMap.2 ⟨_, h, rfl⟩)
    | update ha h => cases hsearched
    | insert hc ha h => cases hsearched
    | onDuplicate ha h => cases hsearched

/-! ### Edits of qualifiers -/

variable {rule : Rule} {tables : List TableRef} {owner : String} {start : Nat}

/-- A qualifier that is the name of a table covers some bytes. -/
theorem exists_stop {t : TableRef} (hnamed : t.name ≠ "") (hsame : Text.sameName t.name owner = true) :
    start + owner.utf8ByteSize - 1 + 1 = start + owner.utf8ByteSize := by
  have hsize : owner.utf8ByteSize ≠ 0 := by
    intro hzero
    rw [String.utf8ByteSize_eq_zero_iff.1 hzero, Text.sameName_iff] at hsame
    exact hnamed (String.toList_eq_nil_iff.1 (List.map_eq_nil_iff.1 hsame))
  omega

/-- A qualifier is replaced only when it is the name of a sharded table. -/
theorem exists_table_of_ownerEdit? {e : Edit} (h : ownerEdit? rule tables owner start = some e) :
    ∃ t ∈ tables, rule.isSharded t.name = true ∧ Text.sameName t.name owner = true ∧
      e = .table start (start + owner.utf8ByteSize - 1) t.name := by
  unfold ownerEdit? at h
  split at h
  · next t hfound =>
      split at h
      · next hsharded =>
          have hsame := List.find?_some hfound
          exact ⟨t, List.mem_of_find?_eq_some hfound, hsharded, hsame, (Option.some.inj h).symm⟩
      · cases h
  · cases h

/-- It is always replaced then. -/
theorem exists_ownerEdit? (start : Nat) {t : TableRef} (ht : t ∈ tables)
    (hsharded : rule.isSharded t.name = true) (hsame : Text.sameName t.name owner = true) :
    ∃ u ∈ tables, Text.sameName u.name t.name = true ∧
      ownerEdit? rule tables owner start =
        some (.table start (start + owner.utf8ByteSize - 1) u.name) := by
  -- another table may come first under this name, which is the same logical table then
  cases hfound : tables.find? fun t => Text.sameName t.name owner with
  | none => exact absurd hsame (List.find?_eq_none.1 hfound t ht)
  | some u =>
      have hu := List.find?_some hfound
      have hsame' : Text.sameName u.name t.name = true :=
        Text.sameName_trans hu (Text.sameName_comm .. ▸ hsame)
      refine ⟨u, List.mem_of_find?_eq_some hfound, hsame', ?_⟩
      rw [ownerEdit?, hfound]
      simp only
      rw [if_pos ((Rule.isSharded_congr hsame').trans hsharded)]

/-- **The qualifiers that are replaced.**  All sharded tables of a statement are replaced where the
statement names them, and every qualifier in the condition, at any depth, and in the select list that
is the name of a sharded table is replaced as a whole.  Nothing else is. -/
theorem tables_spec (rule : Rule) (s : Statement) (hnamed : ∀ t ∈ s.tables, t.name ≠ "") :
    (∀ t ∈ s.tables, rule.isSharded t.name = true →
      .table t.start t.stop t.name ∈ Editing.tables rule s) ∧
    (∀ clause owner start, clause.isSearched = true → s.Qualifies owner start clause →
      ∀ t ∈ s.tables, rule.isSharded t.name = true → Text.sameName t.name owner = true →
        ∃ u ∈ s.tables, Text.sameName u.name t.name = true ∧
          ∃ stop, stop + 1 = start + owner.utf8ByteSize ∧
            .table start stop u.name ∈ Editing.tables rule s) ∧
    ∀ e ∈ Editing.tables rule s,
      (∃ t ∈ s.tables, rule.isSharded t.name = true ∧ e = .table t.start t.stop t.name) ∨
        ∃ clause owner start, clause.isSearched = true ∧ s.Qualifies owner start clause ∧
          ∃ t ∈ s.tables, rule.isSharded t.name = true ∧ Text.sameName t.name owner = true ∧
            ∃ stop, stop + 1 = start + owner.utf8ByteSize ∧ e = .table start stop t.name := by
  refine ⟨fun t ht hsharded => ?_, fun clause owner start hsearched hq t ht hsharded hsame => ?_,
    fun e he => ?_⟩
  · exact List.mem_append_left _
      (List.mem_map.2 ⟨t, List.mem_filter.2 ⟨ht, hsharded⟩, rfl⟩)
  · obtain ⟨u, hu, hsame', hedit⟩ := exists_ownerEdit? start ht hsharded hsame
    have howner : (owner, start) ∈ owners s := mem_owners_iff.2 ⟨clause, hsearched, hq⟩
    exact ⟨u, hu, hsame', _, exists_stop (hnamed t ht) hsame,
      List.mem_append_right _ (List.mem_filterMap.2 ⟨_, howner, hedit⟩)⟩
  · rcases List.mem_append.1 he with he | he
    · obtain ⟨t, ht, rfl⟩ := List.mem_map.1 he
      obtain ⟨ht, hsharded⟩ := List.mem_filter.1 ht
      exact .inl ⟨t, ht, hsharded, rfl⟩
    · obtain ⟨⟨owner, start⟩, howner, hedit⟩ := List.mem_filterMap.1 he
      obtain ⟨clause, hsearched, hq⟩ := mem_owners_iff.1 howner
      obtain ⟨t, ht, hsharded, hsame, rfl⟩ := exists_table_of_ownerEdit? hedit
      exact .inr ⟨clause, owner, start, hsearched, hq, t, ht, hsharded, hsame, _,
        exists_stop (hnamed t ht) hsame, rfl⟩

/-- `UPDATE t_order SET t_order.status = 1 WHERE t_order.id = 2 OR t_order.id = 3` -/
def orderSetting : Statement :=
  .update {
    tables := [.ofName "t_order" 7]
    assignments := [⟨.qualified "t_order" "status" 19, .literal (.int 1) 36 36⟩]
    condition := some (.or [.compare (.qualified "t_order" "id" 44) .eq (.literal (.int 2) 57 57),
      .compare (.qualified "t_order" "id" 62) .eq (.literal (.int 3) 75 75)]) }

/-- `SELECT * FROM t_config t_order, t_order o WHERE t_order.id = 1` -/
def aliasQuery : Statement :=
  .select {
    tables := [{ TableRef.ofName "t_config" 14 with alias? := some "t_order" },
      { TableRef.ofName "t_order" 32 with alias? := some "o" }]
    projections := { start := 7, stop := 7, items := [.star none 7 7] }
    condition := some (.compare (.qualified "t_order" "id" 48) .eq (.literal (.int 1) 61 61)) }

/-- The second qualifier of a disjunction. -/
theorem tables_spec_setting :
    (∀ t ∈ orderSetting.tables, t.name ≠ "") ∧
      Clause.condition.isSearched = true ∧ orderSetting.Qualifies "t_order" 62 .condition ∧
      (gridRule []).isSharded "t_order" = true ∧
      .table 62 68 "t_order" ∈ Editing.tables (gridRule []) orderSetting := by
  have hnamed : ∀ t ∈ orderSetting.tables, t.name ≠ "" := by decide
  have hsharded : (gridRule []).isSharded "t_order" = true := by decide +kernel
  have hq : orderSetting.Qualifies "t_order" 62 .condition :=
    .condition rfl (.or (List.mem_cons_of_mem _ List.mem_cons_self) .compare) ⟨rfl, rfl⟩
  obtain ⟨-, hreplaced, -⟩ := tables_spec (gridRule []) orderSetting hnamed
  obtain ⟨u, hu, -, stop, hstop, hedit⟩ :=
    hreplaced .condition "t_order" 62 rfl hq _ List.mem_cons_self hsharded (by decide)
  cases List.mem_singleton.1 hu
  have hsize : "t_order".utf8ByteSize = 7 := by decide
  obtain rfl : stop = 68 := by omega
  exact ⟨hnamed, rfl, hq, hsharded, hedit⟩

/-- The qualifier of an assigned column is the name of a sharded table and no alias, and it stays as
it is.  The alias of a table that is not sharded is replaced, as it is the name of a sharded one. -/
theorem tables_of_assignment_and_alias :
    ((gridRule []).isSharded "t_order" = true ∧ "t_order" ∈ orderSetting.tables.map (·.name) ∧
      (∀ t ∈ orderSetting.tables, t.alias? = none) ∧
      orderSetting.Qualifies "t_order" 19 .assignments ∧
      ∀ e ∈ Editing.tables (gridRule []) orderSetting, e.start ≠ 19) ∧
    (gridRule []).isSharded "t_config" = false ∧
      { TableRef.ofName "t_config" 14 with alias? := some "t_order" } ∈ aliasQuery.tables ∧
      aliasQuery.Qualifies "t_order" 48 .condition ∧
      .table 48 54 "t_order" ∈ Editing.tables (gridRule []) aliasQuery := by
  refine ⟨⟨by decide +kernel, by decide, by decide, .update List.mem_cons_self ⟨rfl, rfl⟩,
    by decide +kernel⟩, by decide +kernel, by decide, .condition rfl .compare ⟨rfl, rfl⟩,
    by decide +kernel⟩

end Editing

end ShardedSql
