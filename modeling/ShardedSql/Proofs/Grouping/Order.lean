/-
**Groups in the order of their keys.**

When rows are sorted by the columns of their key, the rows of a key stand together and their keys
are in order.  Sorting the rows before they are grouped or the groups afterwards comes to the same:
no two groups have keys that are equal in the order.

Main definitions:

* `ShardedSql.Group.orderedKeys` — the different keys of some rows, in order;
* `ShardedSql.Group.inOrder` — the rows of the groups in that order.

Main results:

* `ShardedSql.Group.keysOf_sortRows`, `ShardedSql.Group.rowAt_sortRows` — **sorting the rows sorts
  the keys, and leaves each group as it is**;
* `ShardedSql.Group.inOrder_eq_sortKeyed` — **sorting the rows of the groups sorts the keys**;
* `ShardedSql.Group.orderedKeys_pairwise` — the keys are strictly in order.
-/

import ShardedSql.Proofs.Grouping
import ShardedSql.Proofs.Sorting.Keyed

set_option relaxedAutoImplicit false
set_option autoImplicit false

namespace ShardedSql

open SortKey

/-- Values that count in rows that do not mix numbers do not mix numbers. -/
theorem SortKey.mixesNumbers_eq_false {keys : List SortKey} {rows : List Row}
    (h : Unmixed keys rows) {values : List (List Value)}
    (hvalues : ∀ vs ∈ values, ∃ row ∈ rows, vs = valuesOf keys row) :
    mixesNumbers keys values = false := by
  refine mixesNumbers_eq_false_iff.2 fun i hi vs hvs ws hws v hv w hw => ?_
  have hvalue (row : Row) : (valuesOf keys row)[i]? = some (row.getD keys[i].index .null) := by
    rw [valuesOf, List.getElem?_map, List.getElem?_eq_getElem hi, Option.map_some]
  obtain ⟨a, ha, rfl⟩ := hvalues vs hvs
  obtain ⟨b, hb, rfl⟩ := hvalues ws hws
  rw [hvalue, Option.mem_some_iff] at hv hw
  subst hv hw
  exact h keys[i] (List.getElem_mem hi) a ha b hb

namespace Group

variable {keys : List SortKey} {columns : List AggregateColumn} {all rows : List Row}

/-- The different keys of some rows, in order. -/
def orderedKeys (keys : List SortKey) (rows : List Row) : List (List Value) :=
  (keysOf (keys.map (·.index)) rows).mergeSort fun a b => (kindOrderRows keys a b).isLE

theorem mem_orderedKeys {key : List Value} :
    key ∈ orderedKeys keys rows ↔ ∃ row ∈ rows, keyOf (keys.map (·.index)) row = key := by
  rw [orderedKeys, List.mem_mergeSort, mem_keysOf]

/-- Keys that are equal in the order are equal. -/
theorem eq_of_kindOrderRows_keyOf {a b : Row}
    (h : kindOrderRows keys (keyOf (keys.map (·.index)) a) (keyOf (keys.map (·.index)) b) = .eq) :
    keyOf (keys.map (·.index)) a = keyOf (keys.map (·.index)) b := by
  have hlength : ∀ row, (keyOf (keys.map (·.index)) row).length = keys.length := by
    intro row
    rw [keyOf, List.length_map, List.length_map]
  exact eq_of_kindOrderRows_eq (hlength a) (hlength b) h

theorem kindOrderOf_eq_keyOf (a b : Row) :
    kindOrderOf keys a b =
      kindOrderRows keys (keyOf (keys.map (·.index)) a) (keyOf (keys.map (·.index)) b) := by
  rw [kindOrderOf, valuesOf_eq_keyOf, valuesOf_eq_keyOf]

/-- Rows in order, by their keys. -/
theorem sortRows_eq_keyOf (h : Unmixed keys rows) :
    sortRows keys rows = rows.mergeSort fun a b =>
      (kindOrderRows keys (keyOf (keys.map (·.index)) a) (keyOf (keys.map (·.index)) b)).isLE := by
  rw [sortRows_eq h]
  simp only [kindOrderOf_eq_keyOf]

/-- **Sorting the rows sorts their different keys.** -/
theorem keysOf_sortRows (h : Unmixed keys rows) :
    keysOf (keys.map (·.index)) (sortRows keys rows) = orderedKeys keys rows := by
  have hmap : (sortRows keys rows).map (keyOf (keys.map (·.index))) =
      (rows.map (keyOf (keys.map (·.index)))).mergeSort fun a b =>
        (kindOrderRows keys a b).isLE := by
    rw [sortRows_eq_keyOf h]
    exact List.map_mergeSort fun _ _ _ _ => rfl
  rw [keysOf, hmap, Sorting.eraseDups_mergeSort, orderedKeys, keysOf]
  intro a ha b hb hab
  obtain ⟨ra, -, rfl⟩ := List.mem_map.1 ha
  obtain ⟨rb, -, rfl⟩ := List.mem_map.1 hb
  exact eq_of_kindOrderRows_keyOf hab

/-- **Sorting the rows leaves the group of each key as it is.** -/
theorem rowAt_sortRows (h : Unmixed keys rows) (key : List Value) :
    rowAt (keys.map (·.index)) columns (sortRows keys rows) key =
      rowAt (keys.map (·.index)) columns rows key := by
  have hfilter := Sorting.filter_mergeSort (kindOrderRows keys) (keyOf (keys.map (·.index))) rows
    key
  rw [rowAt, rowAt, atKey, atKey, sortRows_eq_keyOf h, hfilter]

/-- The rows of the groups of some rows in the order of their keys, or the faults in making them. -/
def inOrder (keys : List SortKey) (columns : List AggregateColumn) (rows : List Row) :
    List (Outcome Row) :=
  (orderedKeys keys rows).map (rowAt (keys.map (·.index)) columns rows)

/-- The values that count in the row of the group of a key are the key. -/
theorem valuesOf_rowAt {key : List Value} {row : Row}
    (haggregated : ∀ c ∈ columns, c.index ∉ keys.map (·.index))
    (hkey : key ∈ keysOf (keys.map (·.index)) all)
    (h : rowAt (keys.map (·.index)) columns all key = .ok row) : valuesOf keys row = key := by
  rw [valuesOf_eq_keyOf]
  exact keyOf_rowAt haggregated hkey h

/-- **Sorting the rows of the groups sorts the keys.** -/
theorem inOrder_eq_sortKeyed (hunmixed : Unmixed keys all)
    (haggregated : ∀ c ∈ columns, c.index ∉ keys.map (·.index))
    (hrows : (keysOf (keys.map (·.index)) all).mapM (rowAt (keys.map (·.index)) columns all) =
      .ok rows) :
    inOrder keys columns all =
      (sortKeyed keys (rows.map fun row => (valuesOf keys row, row))).map .ok := by
  rw [inOrder, ← Outcome.mapM_eq_ok_iff_map]
  generalize hkeyed : (rows.map fun row => (valuesOf keys row, row)) = keyed
  have hfst : keyed.map (·.1) = keysOf (keys.map (·.index)) all := by
    rw [← hkeyed, List.map_map]
    exact Outcome.map_eq_of_mapM hrows fun _ hkey _ hrow => valuesOf_rowAt haggregated hkey hrow
  have hmade : ∀ p ∈ keyed, rowAt (keys.map (·.index)) columns all p.1 = .ok p.2 := by
    intro p hp
    rw [← hkeyed] at hp
    obtain ⟨row, hrow, rfl⟩ := List.mem_map.1 hp
    obtain ⟨key, hkey, hkeyrow⟩ := Outcome.exists_of_mem_right hrows hrow
    rwa [valuesOf_rowAt haggregated hkey hkeyrow]
  have hof : ∀ p ∈ keyed, ∃ row ∈ all, p.1 = valuesOf keys row := by
    intro p hp
    have hmem : p.1 ∈ keyed.map (·.1) := List.mem_map_of_mem hp
    rw [hfst] at hmem
    obtain ⟨row, hrow, hkey⟩ := mem_keysOf.1 hmem
    exact ⟨row, hrow, by rw [valuesOf_eq_keyOf, hkey]⟩
  have hmixes : mixesNumbers keys (keyed.map (·.1)) = false := by
    refine mixesNumbers_eq_false hunmixed fun vs hvs => ?_
    obtain ⟨p, hp, rfl⟩ := List.mem_map.1 hvs
    exact hof p hp
  have hsort : (keyed.mergeSort fun a b => (orderRows keys a.1 b.1).isLE).map (·.1) =
      orderedKeys keys all := by
    rw [orderedKeys, ← hfst]
    refine List.map_mergeSort fun p hp q hq => ?_
    obtain ⟨a, ha, hpa⟩ := hof p hp
    obtain ⟨b, hb, hqb⟩ := hof q hq
    rw [hpa, hqb, ← orderOf_eq hunmixed ha hb, SortKey.orderOf]
  rw [sortKeyed, hmixes, ← hsort, Outcome.mapM_eq_ok, List.forall₂_map_left_iff,
    List.forall₂_map_right_iff, if_neg Bool.false_ne_true, List.forall₂_same]
  intro p hp
  exact hmade p (List.mem_mergeSort.1 hp)

end Group

end ShardedSql
