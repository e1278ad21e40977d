/-
**The limit of connections does not change the result of a query.**

The limit decides how many statements share a connection, and whether the rows of a statement are
streamed or read at once.  It decides neither in which order the cursors are returned nor what is
left in them: a cursor whose rows were read at once has the rows of the one that was read, and
differs from it in that it counts as closed.  So whatever merges the cursors gives the same rows.

Main definitions:

* `ShardedSql.Cursor.Fresh` — a cursor as a data source returns it, on which no call fails;
* `ShardedSql.PhysicalSql.bySource` — statements in the order in which their cursors are returned.

Main results:

* `ShardedSql.Cursor.Fresh.materialize` — reading all rows of a cursor gives a cursor with them;
* `ShardedSql.Execution.flatMap_connections` — **the order of the statements does not depend on the
  limit**;
* `ShardedSql.Execution.queryConnections_answers` — a cursor for each statement, in that order;
* `ShardedSql.Execution.query_limit` — **two limits give cursors with the same rows, which merge
  alike**.
-/

import ShardedSql.Execution
import ShardedSql.Proofs.Grouping
import ShardedSql.Proofs.Merging.Unclosed

set_option relaxedAutoImplicit false
set_option autoImplicit false

namespace ShardedSql

/-! ### Cursors that were just opened -/

namespace Cursor

/-- A cursor stands before its rows, which are as wide as its labels say, and no call on it
fails. -/
structure Fresh (c : Cursor) : Prop where
  eq_ofRows : c = ofRows c.labels c.rest
  wide : ∀ row ∈ c.rest, row.length = c.labels.length

variable {c : Cursor}

theorem Fresh.unclosed_eq (h : c.Fresh) : c.unclosed = c := by
  rw [h.eq_ofRows]
  rfl

/-- Moving on changes neither the labels nor which calls fail. -/
theorem advance_keeps (c : Cursor) :
    c.advance.2.labels = c.labels ∧ c.advance.2.plan = c.plan := by
  unfold advance next
  cases c.plan.next c.nexts with
  | some f => exact ⟨rfl, rfl⟩
  | none => cases c.rest <;> exact ⟨rfl, rfl⟩

theorem foldUpTo_keeps {σ : Type} (step : σ → Row → Outcome σ) (n : Nat) (s : σ) (c : Cursor) :
    (foldUpTo step n s c).2.labels = c.labels ∧ (foldUpTo step n s c).2.plan = c.plan := by
  induction n generalizing s c with
  | zero => exact ⟨rfl, rfl⟩
  | succ n ih =>
      have hmoved := c.advance_keeps
      rw [foldUpTo]
      generalize c.advance = moved at hmoved ⊢
      obtain ⟨x, d⟩ := moved
      cases x with
      | error f => exact hmoved
      | ok found =>
          cases found with
          | false => exact hmoved
          | true =>
              simp only
              cases d.row >>= step s with
              | error f => exact hmoved
              | ok s' =>
                  obtain ⟨hlabels, hplan⟩ := ih s' d
                  exact ⟨hlabels.trans hmoved.1, hplan.trans hmoved.2⟩

/-- Collecting rows gives the list of them. -/
theorem foldlM_collect (rows collected : List Row) :
    rows.foldlM (fun rows row => (.ok (rows ++ [row]) : Outcome (List Row))) collected =
      .ok (collected ++ rows) := by
  induction rows generalizing collected with
  | nil =>
      rw [List.append_nil]
      rfl
  | cons row rows ih =>
      rw [List.foldlM_cons]
      refine (ih (collected ++ [row])).trans ?_
      rw [List.append_assoc, List.singleton_append]

/-- **Reading all rows at once gives a cursor with the same rows.** -/
theorem Fresh.materialize (h : c.Fresh) :
    ∃ held after, c.materialize = (.ok held, after) ∧ held.unclosed = c := by
  have hplan : c.plan = .none := plan_of_eq_ofRows h.eq_ofRows
  have hrows := foldRows_fst (fun rows row => (.ok (rows ++ [row]) : Outcome (List Row))) []
    hplan h.wide
  obtain ⟨hlabels, hplan'⟩ := foldUpTo_keeps
    (fun rows row => (.ok (rows ++ [row]) : Outcome (List Row))) (c.rest.length + 1) [] c
  rw [foldlM_collect, List.nil_append] at hrows
  unfold Cursor.materialize
  change (c.foldRows _ []).2.labels = _ at hlabels
  change (c.foldRows _ []).2.plan = _ at hplan'
  generalize c.foldRows (fun rows row => .ok (rows ++ [row])) [] = read at hrows hlabels hplan' ⊢
  obtain ⟨x, d⟩ := read
  simp only at hrows hlabels hplan'
  subst hrows
  have hclose : d.close =
      (.ok (), { d with closes := d.closes + 1, current := none, rest := [] }) := by
    rw [close, hplan', hplan]
    rfl
  refine ⟨{ ofRows d.labels c.rest with closes := d.closes + 1 }, d.close.2, ?_, ?_⟩
  · simp only [hclose]
    rfl
  · rw [h.eq_ofRows, ← hlabels]
    rfl

end Cursor

/-! ### The order of the statements -/

/-- Statements by data source, in the order of their first ones. -/
def PhysicalSql.bySource (statements : List PhysicalSql) : List PhysicalSql :=
  (dataSources statements).flatMap fun s => statements.filter fun p => p.dataSource = s

theorem PhysicalSql.mem_of_mem_bySource {statements : List PhysicalSql} {p : PhysicalSql}
    (h : p ∈ bySource statements) : p ∈ statements := by
  obtain ⟨s, -, hp⟩ := List.mem_flatMap.1 h
  exact (List.mem_filter.1 hp).1

namespace Execution

/-- **The order of the statements does not depend on the limit.** -/
theorem flatMap_connections (limit : ConnectionLimit) (statements : List PhysicalSql) :
    (connections (limit.group statements)).flatMap (·.2) = PhysicalSql.bySource statements := by
  have hgroup (g : SourceGroup) :
      (g.connections.map fun statements => (g.mode, statements)).flatMap (·.2) =
        g.connections.flatten := by
    rw [List.flatMap_map, List.flatMap_def]
    exact congrArg _ (List.map_id _)
  rw [connections, List.flatMap_assoc, ConnectionLimit.group, List.flatMap_map]
  simp only [hgroup, ConnectionLimit.groupOf_statements]
  rfl

/-- Neither does it matter when data sources are looked for. -/
theorem checkSources_group (names : List String) (limit : ConnectionLimit)
    (statements : List PhysicalSql) :
    checkSources names (limit.group statements) =
      match (PhysicalSql.dataSources statements).find? fun s => !names.contains s with
      | some s => .error ((Fault.execution "Missing data source").note "data_source" s)
      | none => .ok () := by
  have hfind : (limit.group statements).find? (fun g => !names.contains g.dataSource) =
      ((PhysicalSql.dataSources statements).find? fun s => !names.contains s).map fun s =>
        limit.groupOf s (statements.filter fun p => p.dataSource = s) := by
    rw [ConnectionLimit.group, List.find?_map]
    rfl
  rw [checkSources, hfind]
  cases (PhysicalSql.dataSources statements).find? fun s => !names.contains s <;> rfl

/-! ### A cursor for each statement -/

section

variable {m : Type → Type} [Monad m] [LawfulMonad m] {ask : PhysicalSql → m (Outcome Cursor)}
  {answer : PhysicalSql → Cursor}

/-- A connection returns a cursor for each of its statements, whether or not it is shared. -/
theorem queryConnection_answers (mode : ConnectionMode) (opened : List Cursor)
    {statements : List PhysicalSql}
    (hask : ∀ p ∈ statements, ask p = pure (.ok (answer p)) ∧ (answer p).Fresh) :
    ∃ cs, queryConnection ask mode opened statements = pure (.ok (opened ++ cs)) ∧
      cs.map Cursor.unclosed = statements.map answer := by
  induction statements generalizing opened with
  | nil => exact ⟨[], by rw [queryConnection, List.append_nil], rfl⟩
  | cons p rest ih =>
      obtain ⟨⟨hp, hfresh⟩, hrest⟩ := List.forall_mem_cons.1 hask
      rw [queryConnection, hp, pure_bind]
      cases mode with
      | streamed =>
          obtain ⟨cs, hquery, hcs⟩ := ih (opened ++ [answer p]) hrest
          refine ⟨answer p :: cs, ?_, ?_⟩
          · rw [List.append_cons]
            exact hquery
          · rw [List.map_cons, List.map_cons, hfresh.unclosed_eq, hcs]
      | shared =>
          obtain ⟨held, after, hread, hheld⟩ := hfresh.materialize
          obtain ⟨cs, hquery, hcs⟩ := ih (opened ++ [held]) hrest
          refine ⟨held :: cs, ?_, ?_⟩
          · rw [List.append_cons]
            simp only [hread]
            exact hquery
          · rw [List.map_cons, List.map_cons, hheld, hcs]

/-- **All connections together return a cursor for each statement**, in the order of these. -/
theorem queryConnections_answers (opened : List Cursor)
    {conns : List (ConnectionMode × List PhysicalSql)}
    (hask : ∀ p ∈ conns.flatMap (·.2), ask p = pure (.ok (answer p)) ∧ (answer p).Fresh) :
    ∃ cs, queryConnections ask opened conns = pure (.ok (opened ++ cs)) ∧
      cs.map Cursor.unclosed = (conns.flatMap (·.2)).map answer := by
  induction conns generalizing opened with
  | nil => exact ⟨[], by rw [queryConnections, List.append_nil], rfl⟩
  | cons conn rest ih =>
      obtain ⟨mode, statements⟩ := conn
      rw [List.flatMap_cons] at hask ⊢
      obtain ⟨hfirst, hrest⟩ := List.forall_mem_append.1 hask
      obtain ⟨more, hmore, hmoreEq⟩ := queryConnection_answers mode [] hfirst
      obtain ⟨cs, hquery, hcs⟩ := ih (opened ++ more) hrest
      refine ⟨more ++ cs, ?_, ?_⟩
      · rw [queryConnections, hmore, pure_bind, ← List.append_assoc]
        exact hquery
      · rw [List.map_append, List.map_append, hmoreEq, hcs]

/-- **The limit of connections does not change the result of a query.**  If a data source is missing
then it is under both limits.  Otherwise both return as many cursors, with the same labels and the
same rows, and merges of them cannot be told apart. -/
theorem query_limit (sources : DataSources m) {statements : List PhysicalSql}
    (hanswers : ∀ p ∈ statements, sources.query p = pure (.ok (answer p)) ∧ (answer p).Fresh)
    (limit limit' : ConnectionLimit) :
    (∃ p ∈ statements, p.dataSource ∉ sources.names ∧ ∃ e,
      query sources limit statements = pure (.error e) ∧
        query sources limit' statements = pure (.error e)) ∨
    ∃ cs cs', query sources limit statements = pure (.ok cs) ∧
      query sources limit' statements = pure (.ok cs') ∧
      List.Forall₂ (fun c c' => c.labels = c'.labels ∧ c.rest = c'.rest) cs cs' ∧
      ∀ (rule : Rule) (d : Dialect) (statement : Statement) (parameters : List Value),
        Merged.Alike (Merged.ofCursors rule d statement parameters cs)
          (Merged.ofCursors rule d statement parameters cs') := by
  unfold query
  simp only [checkSources_group]
  cases hfind : (PhysicalSql.dataSources statements).find? fun s => !sources.names.contains s with
  | some s =>
      have hmem := List.mem_of_find?_eq_some hfind
      have hmissing := List.find?_some hfind
      rw [PhysicalSql.dataSources, List.mem_eraseDups, List.mem_map] at hmem
      obtain ⟨p, hp, rfl⟩ := hmem
      exact .inl ⟨p, hp, by simpa using hmissing, _, rfl, rfl⟩
  | none =>
      have hask (limit : ConnectionLimit) :
          ∀ p ∈ (connections (limit.group statements)).flatMap (·.2),
            sources.query p = pure (.ok (answer p)) ∧ (answer p).Fresh := by
        intro p hp
        rw [flatMap_connections] at hp
        exact hanswers p (PhysicalSql.mem_of_mem_bySource hp)
      obtain ⟨cs, hquery, hcs⟩ := queryConnections_answers [] (hask limit)
      obtain ⟨cs', hquery', hcs'⟩ := queryConnections_answers [] (hask limit')
      rw [flatMap_connections] at hcs hcs'
      have hsame : cs.map Cursor.unclosed = cs'.map Cursor.unclosed := hcs.trans hcs'.symm
      refine .inr ⟨cs, cs', hquery, hquery', ?_, fun rule d statement parameters =>
        Merged.alike_of_unclosed_eq rule d statement parameters hsame⟩
      rw [← List.forall₂_eq_eq_eq, List.forall₂_map_left_iff, List.forall₂_map_right_iff] at hsame
      refine hsame.imp fun c c' h => ⟨?_, ?_⟩
      · rw [← c.labels_unclosed, h, c'.labels_unclosed]
      · rw [← c.rest_unclosed, h, c'.rest_unclosed]

end

/-- Three statements, two of them for one data source.  With one connection for each data source the
rows of these two are read at once; with two connections they are streamed. -/
theorem query_limit_three :
    ∃ cs cs', query (m := Id) ⟨["a", "b"], fun p => .ok (.ofRows ["n"] [[.text p.text]]),
          fun _ => .ok 0⟩ ⟨1, Nat.one_pos⟩
          [⟨"a", "x", []⟩, ⟨"b", "y", []⟩, ⟨"a", "z", []⟩] = .ok cs ∧
      query (m := Id) ⟨["a", "b"], fun p => .ok (.ofRows ["n"] [[.text p.text]]),
          fun _ => .ok 0⟩ ⟨2, Nat.two_pos⟩
          [⟨"a", "x", []⟩, ⟨"b", "y", []⟩, ⟨"a", "z", []⟩] = .ok cs' ∧
      List.Forall₂ (fun c c' => c.labels = c'.labels ∧ c.rest = c'.rest) cs cs' := by
  obtain ⟨p, hp, hmissing, -⟩ | ⟨cs, cs', hquery, hquery', hsame, -⟩ :=
    @query_limit Id _ _ (fun p => .ofRows ["n"] [[.text p.text]])
      ⟨["a", "b"], fun p => .ok (.ofRows ["n"] [[.text p.text]]), fun _ => .ok 0⟩
      [⟨"a", "x", []⟩, ⟨"b", "y", []⟩, ⟨"a", "z", []⟩]
      (fun p _ => ⟨rfl, rfl, by simp [Cursor.ofRows]⟩) ⟨1, Nat.one_pos⟩ ⟨2, Nat.two_pos⟩
  · simp only [List.mem_cons, List.not_mem_nil, or_false] at hp
    rcases hp with rfl | rfl | rfl <;> exact absurd hmissing (by decide)
  · exact ⟨cs, cs', hquery, hquery', hsame⟩

end Execution

end ShardedSql
