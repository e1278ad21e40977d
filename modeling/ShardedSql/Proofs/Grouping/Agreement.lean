/-
**Groups made at once and groups made one after another are the same.**

When every cursor is in the order of the groups, the groups can be made while the rows are read, and
otherwise all rows are read first.  The first way merges the rows and keeps one group at a time; the
second keeps all groups, finds the one of a row by its whole key and sorts them in the end.  Both
give the row of the group of each key in the order of the keys.

Main results:

* `ShardedSql.MergedRows.streamGroups_agrees` — **when groups can be made at once, making them one
  after another gives the same rows in the same order**.
-/

import ShardedSql.Proofs.Grouping.Stream

set_option relaxedAutoImplicit false
set_option autoImplicit false

namespace ShardedSql

open SortKey

namespace MergedRows

/-- **When groups can be made at once, making them one after another gives the same rows in the same
order.** -/
theorem streamGroups_agrees {keys : List SortKey} {groupColumns : List Nat}
    {columns : List AggregateColumn} {cursors : List Cursor} {held : MergedRows}
    (hkeys : keys.map (·.index) = groupColumns)
    (haggregated : ∀ c ∈ columns, c.index ∉ groupColumns)
    (hfresh : ∀ c ∈ cursors, c = Cursor.ofRows c.labels c.rest)
    (hlabels : ∀ c ∈ cursors, ∀ row ∈ c.rest, row.length = c.labels.length)
    (hsorted : ∀ c ∈ cursors, c.rest.Pairwise fun a b => (orderOf keys a b).isLE)
    (hunmixed : Unmixed keys (cursors.map (·.rest)).flatten)
    (hheld : holdGroups keys groupColumns columns cursors = .ok held) :
    ∃ stream rows, streamGroups keys groupColumns columns cursors = .ok stream ∧
      held.Yields rows ∧ stream.Yields rows := by
  subst hkeys
  have hplan : ∀ c ∈ cursors, c.plan = .none := fun c hc => Cursor.plan_of_eq_ofRows (hfresh c hc)
  obtain ⟨rows, hrows, rfl⟩ := holdGroups_eq_ok.1 hheld
  obtain ⟨hread, made, hmade, -, hsort⟩ := (Group.ofCursors_eq_ok hplan hlabels).1 hrows
  have hmergeable : CursorQueue.Mergeable keys (cursors.map (·.rest)) := by
    refine ⟨fun l hl => ?_, fun row hrow k hk => ?_, hunmixed⟩
    · obtain ⟨c, hc, rfl⟩ := List.mem_map.1 hl
      exact hsorted c hc
    · exact hread row hrow k.index (List.mem_map_of_mem hk)
  obtain ⟨stream, hstream, hoffers⟩ := streamGroups_offers columns hfresh hlabels hmergeable
  rw [Group.inOrder_eq_sortKeyed hunmixed haggregated hmade, hsort] at hoffers
  exact ⟨stream, rows, hstream, yields_held rows none _, hoffers⟩

/-- Sums of two cursors that both have rows with the key 2. -/
theorem streamGroups_agrees_sum :
    ∃ stream, streamGroups [⟨0, .desc, none⟩] [0] [{ kind := .sum, index := 1 }]
        [.ofRows ["k", "n"] [[.int 2, .int 10], [.int 1, .int 7]],
          .ofRows ["k", "n"] [[.int 2, .int 5], [.null, .null]]] = .ok stream ∧
      stream.Yields [[.int 2, .int 15], [.int 1, .int 7], [.null, .null]] := by
  have hsorted : Group.sortKeyed [⟨0, .desc, none⟩]
      [([.int 2], [.int 2, .int 15]), ([.int 1], [.int 1, .int 7]), ([.null], [.null, .null])] =
      [[.int 2, .int 15], [.int 1, .int 7], [.null, .null]] := by
    rw [Group.sortKeyed, if_neg (by decide), List.mergeSort_of_pairwise (by decide)]
    rfl
  have hrows : (Group.ofCursors [0] [⟨0, .desc, none⟩] [{ kind := .sum, index := 1 }]
      [.ofRows ["k", "n"] [[.int 2, .int 10], [.int 1, .int 7]],
        .ofRows ["k", "n"] [[.int 2, .int 5], [.null, .null]]]).1 =
      .ok [[.int 2, .int 15], [.int 1, .int 7], [.null, .null]] :=
    (Group.ofCursors_eq_ok (by simp [Cursor.ofRows, FaultPlan.none]) (by decide)).2
      ⟨by decide, [[.int 2, .int 15], [.int 1, .int 7], [.null, .null]], by decide, by decide,
        hsorted⟩
  have hmade := holdGroups_eq_ok.2 ⟨_, hrows, rfl⟩
  obtain ⟨stream, rows, hstream, hheld, hyields⟩ := streamGroups_agrees rfl (by decide)
    (by simp [Cursor.ofRows]) (by decide) (by decide) (by unfold Unmixed; decide) hmade
  -- the groups that are made at once are known, and they are those that the stream gives
  rw [Yields, ← Offers.eq_of_yields (yields_held _ _ _) hheld] at hyields
  exact ⟨stream, hstream, hyields⟩

end MergedRows

end ShardedSql
