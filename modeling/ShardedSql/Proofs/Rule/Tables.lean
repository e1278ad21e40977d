/-
**Tables that are spread alike are mapped onto each other by position.**

The actual tables of a data source stand in the order of the nodes, whatever nodes of other data
sources are configured between them.  A name is looked for among those of one table, and the place
where it stands is looked up among those of another.  Where the two have equally many tables, with
names that differ, this maps the tables of one onto those of the other in their order, so the way
back and the way through a third table lead to the same place.

Main definitions:

* `ShardedSql.Rule.HasTables` — the actual tables of a table in a data source, with names that
  differ;
* `ShardedSql.Rule.counterpart` — the name that stands where another one does.

Main results:

* `ShardedSql.Rule.table_eq_ok`, `ShardedSql.Rule.table?_congr` — looking a table up;
* `ShardedSql.TableRule.indexOf?_eq_some` — a table is found at its place;
* `ShardedSql.Rule.bindingActualTable_of_indexOf?` — what a place is mapped to;
* `ShardedSql.Rule.bindingActualTable_inverse` — **the maps of tables are bijections in the order of
  the nodes, each is undone by the one back, and they compose**.
-/

import Mathlib.Data.Set.Function
import ShardedSql.Proofs.Text.Case
import ShardedSql.Proofs.Text.Names
import ShardedSql.Rule

set_option relaxedAutoImplicit false
set_option autoImplicit false

namespace ShardedSql

/-- A table is found at its place, in whatever case its name is. -/
theorem TableRule.indexOf?_eq_some {t : TableRule} {source table name : String} {i : Nat}
    (h : Text.AllDiffer (t.tablesIn source)) (hi : (t.tablesIn source)[i]? = some table)
    (hname : Text.sameName table name = true) : t.indexOf? source name = some i :=
  h.findIdx?_eq_some hi hname

namespace Rule

/-! ### Looking a table up -/

section

variable {rule : Rule} {name : String}

theorem table_eq_ok {t : TableRule} : rule.table name = .ok t ↔ rule.table? name = some t := by
  unfold Rule.table
  cases rule.table? name <;> simp

theorem table?_congr {a b : String} (h : Text.sameName a b = true) :
    rule.table? a = rule.table? b := by
  rw [table?, table?, Text.lowercase_eq_of_sameName h]

theorem isSharded_congr {a b : String} (h : Text.sameName a b = true) :
    rule.isSharded a = rule.isSharded b := by
  rw [isSharded, isSharded, table?_congr h]

end

/-! ### Places -/

variable {rule : Rule} {source a b : String} {left right : List String}

/-- What stands at the place of a table is what the table is mapped to. -/
theorem bindingActualTable_of_indexOf? {logic other name actual : String} {t o : TableRule}
    {i : Nat} (ht : rule.table? logic = some t) (ho : rule.table? other = some o)
    (hi : o.indexOf? source name = some i) :
    rule.bindingActualTable source logic other name = .ok actual ↔
      (t.tablesIn source)[i]? = some actual := by
  rw [bindingActualTable, table_eq_ok.2 ho]
  simp only [bind, Except.bind, hi, table_eq_ok.2 ht]
  cases (t.tablesIn source)[i]? with
  | none => simp [throw, throwThe, MonadExceptOf.throw]
  | some x => simp [pure, Except.pure]

/-- The actual tables of a table in a data source, in the order of the nodes, if their names
differ. -/
structure HasTables (rule : Rule) (source logic : String) (tables : List String) : Prop where
  exists_table : ∃ t, rule.table? logic = some t ∧ t.tablesIn source = tables
  differ : Text.AllDiffer tables

/-- **A table is mapped to the one that stands at its place.** -/
theorem HasTables.bindingActualTable_eq (ha : rule.HasTables source a left)
    (hb : rule.HasTables source b right) {i : Nat} {x y : String} (hx : left[i]? = some x)
    (hy : right[i]? = some y) : rule.bindingActualTable source b a x = .ok y := by
  obtain ⟨⟨o, ho, rfl⟩, hdiffer⟩ := ha
  obtain ⟨⟨t, ht, rfl⟩, -⟩ := hb
  exact (bindingActualTable_of_indexOf? ht ho
    (TableRule.indexOf?_eq_some hdiffer hx (Text.sameName_refl x))).2 hy

/-! ### Counterparts -/

/-- The name that stands in one list where another one stands in another list. -/
def counterpart (left right : List String) (x : String) : String := right.getD (left.idxOf x) x

theorem counterpart_eq (h : left.Nodup) {i : Nat} {x y : String} (hx : left[i]? = some x)
    (hy : right[i]? = some y) : counterpart left right x = y := by
  obtain ⟨hlt, rfl⟩ := List.getElem?_eq_some_iff.1 hx
  rw [counterpart, h.idxOf_getElem, List.getD_eq_getElem?_getD, hy]
  rfl

/-- Where there are equally many names, something stands at every place. -/
theorem exists_getElem? (hlength : left.length = right.length) {i : Nat} {x : String}
    (hx : left[i]? = some x) : ∃ y, right[i]? = some y := by
  obtain ⟨hlt, -⟩ := List.getElem?_eq_some_iff.1 hx
  rw [hlength] at hlt
  exact ⟨right[i], List.getElem?_eq_getElem hlt⟩

theorem exists_place (hlength : left.length = right.length) {x : String} (hx : x ∈ left) :
    ∃ (i : Nat) (y : String), left[i]? = some x ∧ right[i]? = some y := by
  obtain ⟨i, hi⟩ := List.mem_iff_getElem?.1 hx
  obtain ⟨y, hy⟩ := exists_getElem? hlength hi
  exact ⟨i, y, hi, hy⟩

theorem counterpart_mem (h : left.Nodup) (hlength : left.length = right.length) {x : String}
    (hx : x ∈ left) : counterpart left right x ∈ right := by
  obtain ⟨i, y, hxi, hyi⟩ := exists_place hlength hx
  rw [counterpart_eq h hxi hyi]
  exact List.mem_of_getElem? hyi

theorem counterpart_counterpart (h : left.Nodup) (h' : right.Nodup)
    (hlength : left.length = right.length) {x : String} (hx : x ∈ left) :
    counterpart right left (counterpart left right x) = x := by
  obtain ⟨i, y, hxi, hyi⟩ := exists_place hlength hx
  rw [counterpart_eq h hxi hyi, counterpart_eq h' hyi hxi]

/-- **Names are in bijection with their counterparts.** -/
theorem bijOn_counterpart (h : left.Nodup) (h' : right.Nodup)
    (hlength : left.length = right.length) :
    Set.BijOn (counterpart left right) {x | x ∈ left} {y | y ∈ right} := by
  have hinverse : Set.InvOn (counterpart right left) (counterpart left right) {x | x ∈ left}
      {y | y ∈ right} :=
    ⟨fun x hx => counterpart_counterpart h h' hlength hx,
      fun y hy => counterpart_counterpart h' h hlength.symm hy⟩
  exact hinverse.bijOn (fun x hx => counterpart_mem h hlength hx)
    fun y hy => counterpart_mem h' hlength.symm hy

/-- The counterparts of all names stand in the order of the names. -/
theorem map_counterpart (h : left.Nodup) (hlength : left.length = right.length) :
    left.map (counterpart left right) = right := by
  refine List.ext_getElem (by rw [List.length_map, hlength]) fun i hi hi' => ?_
  rw [List.getElem_map]
  exact counterpart_eq h (List.getElem?_eq_getElem _) (List.getElem?_eq_getElem hi')

/-! ### There and back -/

/-- **Tables with equally many actual tables in a data source are mapped onto each other.**  The map
is a bijection in the order of the nodes; the map back undoes it; and the way through a third such
table is the direct one. -/
theorem bindingActualTable_inverse (ha : rule.HasTables source a left)
    (hb : rule.HasTables source b right) (hlength : left.length = right.length) :
    (∃ f : String → String,
      (∀ x ∈ left, rule.bindingActualTable source b a x = .ok (f x)) ∧
      Set.BijOn f {x | x ∈ left} {y | y ∈ right} ∧ left.map f = right) ∧
    (∀ x ∈ left,
      (rule.bindingActualTable source b a x >>= rule.bindingActualTable source a b) = .ok x) ∧
    ∀ c third, rule.HasTables source c third → left.length = third.length → ∀ x ∈ left,
      (rule.bindingActualTable source c a x >>= rule.bindingActualTable source b c) =
        rule.bindingActualTable source b a x := by
  have hleft := ha.differ.nodup
  have hright := hb.differ.nodup
  refine ⟨⟨counterpart left right, fun x hx => ?direct, bijOn_counterpart hleft hright hlength,
    map_counterpart hleft hlength⟩, fun x hx => ?back, fun c third hc hthird x hx => ?through⟩
  case direct =>
    obtain ⟨i, y, hxi, hyi⟩ := exists_place hlength hx
    rw [counterpart_eq hleft hxi hyi]
    exact ha.bindingActualTable_eq hb hxi hyi
  case back =>
    obtain ⟨i, y, hxi, hyi⟩ := exists_place hlength hx
    rw [ha.bindingActualTable_eq hb hxi hyi]
    exact hb.bindingActualTable_eq ha hyi hxi
  case through =>
    obtain ⟨i, y, hxi, hyi⟩ := exists_place hlength hx
    obtain ⟨z, hzi⟩ := exists_getElem? hthird hxi
    rw [ha.bindingActualTable_eq hc hxi hzi, ha.bindingActualTable_eq hb hxi hyi]
    exact hc.bindingActualTable_eq hb hzi hyi

/-- Orders, items and users in two data sources.  The nodes of the sources alternate, and the items
of the first one are configured backwards. -/
def alternatingRule : Rule :=
  let table (logic : String) (nodes : List DataNode) : String × TableRule :=
    (logic, ⟨logic, nodes, .none, .none, none⟩)
  ⟨[table "t_order" [⟨"ds_0", "t_order_0"⟩, ⟨"ds_1", "t_order_0"⟩, ⟨"ds_0", "t_order_1"⟩],
      table "t_item" [⟨"ds_0", "t_item_1"⟩, ⟨"ds_1", "t_item_0"⟩, ⟨"ds_0", "t_item_0"⟩],
      table "t_user" [⟨"ds_1", "T_USER"⟩, ⟨"ds_0", "t_user"⟩, ⟨"ds_0", "t_user_1"⟩]],
    [], [], ["ds_0", "ds_1"], none, {}, [], {}⟩

/-- The second order stands where the second item does, and where the second user does. -/
theorem bindingActualTable_inverse_orders :
    alternatingRule.HasTables "ds_0" "t_order" ["t_order_0", "t_order_1"] ∧
      alternatingRule.HasTables "ds_0" "t_item" ["t_item_1", "t_item_0"] ∧
      alternatingRule.HasTables "ds_0" "T_User" ["t_user", "t_user_1"] ∧
      (alternatingRule.bindingActualTable "ds_0" "t_item" "t_order" "t_order_1" >>=
        alternatingRule.bindingActualTable "ds_0" "t_order" "t_item") = .ok "t_order_1" ∧
      (alternatingRule.bindingActualTable "ds_0" "T_User" "t_order" "t_order_1" >>=
        alternatingRule.bindingActualTable "ds_0" "t_item" "T_User") =
          alternatingRule.bindingActualTable "ds_0" "t_item" "t_order" "t_order_1" := by
  have horder : alternatingRule.HasTables "ds_0" "t_order" ["t_order_0", "t_order_1"] :=
    ⟨⟨_, rfl, rfl⟩, by decide⟩
  have hitem : alternatingRule.HasTables "ds_0" "t_item" ["t_item_1", "t_item_0"] :=
    ⟨⟨_, rfl, rfl⟩, by decide⟩
  have huser : alternatingRule.HasTables "ds_0" "T_User" ["t_user", "t_user_1"] :=
    ⟨⟨_, rfl, rfl⟩, by decide⟩
  obtain ⟨-, hback, hthrough⟩ := bindingActualTable_inverse horder hitem rfl
  exact ⟨horder, hitem, huser, hback _ (by decide), hthrough _ _ huser rfl _ (by decide)⟩

end Rule

end ShardedSql
