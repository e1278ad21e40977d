/-
**Statements share connections without loss, and no more than the limit.**

The limit bounds the connections of a data source only through the number of statements that each
of them runs: this is as many as are needed to run all of them within the limit.  Whether
connections are shared is decided by another comparison, of the number of statements with the limit,
and the two agree: connections run one statement each exactly when there are not more statements
than the limit allows.

Main definitions:

* `ShardedSql.SourceGroup.Serves` — **the connections of a group run the statements of its data
  source**.

Main results:

* `ShardedSql.chunks_eq_concat` — all chunks but the last one are full;
* `ShardedSql.length_chunks_le` — as few chunks as can hold a list;
* `ShardedSql.ConnectionLimit.serves_groupOf` — one data source;
* `ShardedSql.ConnectionLimit.group_serves` — **all of them, in the order of their first
  statements**.
-/

import Mathlib.Algebra.Order.Floor.Div
import ShardedSql.Execution.Connections
import ShardedSql.Proofs.Lists.Choices

set_option relaxedAutoImplicit false
set_option autoImplicit false

namespace ShardedSql

/-! ### Chunks -/

section

variable {α : Type} {n : Nat} {xs : List α}

theorem chunks_cons (n : Nat) (a : α) (rest : List α) :
    chunks n (a :: rest) = (a :: rest.take n) :: chunks n (rest.drop n) := by
  rw [chunks]

theorem ne_nil_of_mem_chunks {c : List α} (h : c ∈ chunks n xs) : c ≠ [] := by
  fun_induction chunks n xs with
  | case1 => cases h
  | case2 a rest ih =>
      rcases List.mem_cons.1 h with rfl | h
      · exact List.cons_ne_nil _ _
      · exact ih h

/-- A list that fits into some chunks is cut into no more of them. -/
theorem length_chunks_le {count : Nat} (h : xs.length ≤ (n + 1) * count) :
    (chunks n xs).length ≤ count := by
  fun_induction chunks n xs generalizing count with
  | case1 => exact Nat.zero_le _
  | case2 a rest ih =>
      cases count with
      | zero => cases h
      | succ count =>
          rw [Nat.mul_succ, List.length_cons] at h
          rw [List.length_cons]
          have hrest : (chunks n (rest.drop n)).length ≤ count := by
            refine ih ?_
            rw [List.length_drop]
            omega
          omega

/-- All chunks but the last one are full. -/
theorem chunks_eq_concat (h : xs ≠ []) :
    ∃ full last, chunks n xs = full ++ [last] ∧ (∀ c ∈ full, c.length = n + 1) ∧
      last.length ≤ n + 1 := by
  fun_induction chunks n xs with
  | case1 => cases h rfl
  | case2 a rest ih =>
      by_cases hrest : rest.drop n = []
      · rw [hrest, chunks]
        refine ⟨[], _, rfl, by simp, ?_⟩
        rw [List.length_cons, List.length_take]
        omega
      · obtain ⟨full, last, hconcat, hfull, hlast⟩ := ih hrest
        refine ⟨(a :: rest.take n) :: full, last, ?_, ?_, hlast⟩
        · rw [hconcat, List.cons_append]
        · -- the first chunk is full as something is left behind it
          refine List.forall_mem_cons.2 ⟨?_, hfull⟩
          rw [List.drop_eq_nil_iff] at hrest
          rw [List.length_cons, List.length_take]
          omega

/-- Chunks have one member each when they may have no more, or when there is but one. -/
theorem forall_chunks_length_one (h : xs ≠ []) :
    (∀ c ∈ chunks n xs, c.length = 1) ↔ n = 0 ∨ xs.length = 1 := by
  obtain ⟨a, rest, rfl⟩ := List.exists_cons_of_ne_nil h
  constructor
  · intro hone
    have hfirst := hone (a :: rest.take n) (by rw [chunks_cons]; exact List.mem_cons_self)
    rw [List.length_cons, List.length_take] at hfirst
    rw [List.length_cons]
    omega
  · intro hsmall c hc
    have hpos : 0 < c.length := List.length_pos_of_ne_nil (ne_nil_of_mem_chunks hc)
    rcases hsmall with rfl | hsmall
    · obtain ⟨full, last, hconcat, hfull, hlast⟩ := chunks_eq_concat (n := 0) h
      rw [hconcat, List.mem_append, List.mem_singleton] at hc
      rcases hc with hc | rfl
      · exact hfull c hc
      · omega
    · have hle : c.length ≤ (chunks n (a :: rest)).flatten.length :=
        (List.sublist_flatten_of_mem hc).length_le
      rw [flatten_chunks] at hle
      omega

end

/-! ### Data sources -/

/-- The connections of a group run the statements of its data source in order.  There are not more
of them than the limit, each runs as many statements as all of them have to run at least for that
but for the last one, and they are not shared exactly when each runs a single one. -/
structure SourceGroup.Serves (g : SourceGroup) (limit : Nat) (statements : List PhysicalSql) :
    Prop where
  flatten_eq : g.connections.flatten = statements
  ne_nil : ∀ c ∈ g.connections, c ≠ []
  length_le : g.connections.length ≤ limit
  full : ∃ full last, g.connections = full ++ [last] ∧
    (∀ c ∈ full, c.length = statements.length ⌈/⌉ limit) ∧
    last.length ≤ statements.length ⌈/⌉ limit
  streamed_iff : g.mode = .streamed ↔ ∀ c ∈ g.connections, c.length = 1

namespace ConnectionLimit

variable (limit : ConnectionLimit)

theorem perConnection_eq (n : Nat) : limit.perConnection n = n ⌈/⌉ limit.max := rfl

/-- As many statements as a connection runs are enough. -/
theorem perConnection_le_iff {n k : Nat} : limit.perConnection n ≤ k ↔ n ≤ limit.max * k :=
  ceilDiv_le_iff_le_mul limit.pos

theorem perConnection_pos {n : Nat} (h : 0 < n) : 0 < limit.perConnection n := by
  by_contra hzero
  have hle := limit.perConnection_le_iff.1 (Nat.le_of_not_lt hzero)
  omega

/-- Connections are not shared exactly when there are enough of them. -/
theorem perConnection_eq_one_iff {n : Nat} (h : 0 < n) :
    limit.perConnection n = 1 ↔ n ≤ limit.max := by
  have hpos := limit.perConnection_pos h
  have hle := limit.perConnection_le_iff (n := n) (k := 1)
  omega

/-- **The connections of a data source run its statements.** -/
theorem serves_groupOf (dataSource : String) {statements : List PhysicalSql}
    (h : statements ≠ []) :
    (limit.groupOf dataSource statements).Serves limit.max statements := by
  have hlength : 0 < statements.length := List.length_pos_of_ne_nil h
  have hpos := limit.perConnection_pos hlength
  have hper : limit.perConnection statements.length - 1 + 1 =
      statements.length ⌈/⌉ limit.max :=
    (Nat.sub_add_cancel hpos).trans (limit.perConnection_eq _)
  refine ⟨limit.groupOf_statements dataSource statements, fun c hc => ne_nil_of_mem_chunks hc,
    ?_, ?_, ?_⟩
  · refine length_chunks_le ?_
    rw [hper, Nat.mul_comm]
    exact limit.perConnection_le_iff.1 (Nat.le_refl _)
  · rw [← hper]
    exact chunks_eq_concat h
  · have hone := limit.perConnection_eq_one_iff hlength
    have hsingle := forall_chunks_length_one (n := limit.perConnection statements.length - 1) h
    have hpos' := limit.pos
    rw [groupOf, hsingle]
    by_cases hmax : limit.max < statements.length
    · rw [if_pos hmax]
      refine iff_of_false (fun h => by cases h) ?_
      omega
    · rw [if_neg hmax]
      refine iff_of_true rfl ?_
      omega

/-- **Every data source has one group, in the order of the first statements, and its connections run
the statements of the data source.** -/
theorem group_serves (statements : List PhysicalSql) :
    ((limit.group statements).map (·.dataSource)).Nodup ∧
      (∀ s, s ∈ (limit.group statements).map (·.dataSource) ↔
        ∃ p ∈ statements, p.dataSource = s) ∧
      ((limit.group statements).map (·.dataSource)).Pairwise (fun s t =>
        (statements.map (·.dataSource)).idxOf s < (statements.map (·.dataSource)).idxOf t) ∧
      ∀ g ∈ limit.group statements,
        g.Serves limit.max (statements.filter fun p => p.dataSource = g.dataSource) := by
  have hsources : (limit.group statements).map (·.dataSource) =
      (statements.map (·.dataSource)).eraseDups := by
    rw [group, List.map_map]
    exact List.map_id _
  have hmem (s : String) : s ∈ (statements.map (·.dataSource)).eraseDups ↔
      ∃ p ∈ statements, p.dataSource = s := by
    rw [List.mem_eraseDups, List.mem_map]
  rw [hsources]
  refine ⟨Lists.nodup_eraseDups _, hmem, ?_, fun g hg => ?_⟩
  · have hfirst := Lists.pairwise_idxOf_eraseDups_filter (statements.map (·.dataSource))
      fun _ => true
    rwa [List.filter_true] at hfirst
  · obtain ⟨s, hs, rfl⟩ := List.mem_map.1 hg
    obtain ⟨p, hp, rfl⟩ := (hmem s).1 hs
    refine limit.serves_groupOf p.dataSource fun hnone => ?_
    have hkept : p ∈ statements.filter fun q => q.dataSource = p.dataSource :=
      List.mem_filter.2 ⟨hp, by simp⟩
    rw [hnone] at hkept
    cases hkept

end ConnectionLimit

end ShardedSql
