/-
**Sorting by a comparison that need not be an order.**

If a comparison is a total order then all stable sorts give the same.  If values `a`, `b` and `c`
are such that `a` is smaller than `b` but `c` is equal to both, then what a sort gives depends on
which values it compares, so the steps are fixed here: very short sequences are sorted by
insertion and others by runs, whose pieces are sorted at once unless there are many of them.

Main definitions:

* `ShardedSql.Sorting.sort` — the sort.

Main results:

* `ShardedSql.Sorting.sort_perm` — **no value is lost**, whatever the comparison.
-/

import ShardedSql.Sorting.Partition

set_option relaxedAutoImplicit false
set_option autoImplicit false

namespace ShardedSql.Sorting

variable {α : Type}

/-- A sequence in order. -/
def sort (lt : α → α → Bool) (xs : List α) : List α :=
  if xs.length ≤ 20 then insertion lt xs
  else byRuns ⟨lt, decide (xs.length ≤ 2 * shortLength), byPartition lt⟩ xs

theorem sort_perm (lt : α → α → Bool) (xs : List α) : (sort lt xs).Perm xs := by
  unfold sort
  split
  · exact insertion_perm ..
  · exact byRuns_perm (byPartition_perm lt) xs

theorem length_sort (lt : α → α → Bool) (xs : List α) : (sort lt xs).length = xs.length :=
  (sort_perm lt xs).length_eq

end ShardedSql.Sorting
