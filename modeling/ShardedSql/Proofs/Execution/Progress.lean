/-
**What a query that fails leaves open.**

The connections of a query make progress in any order: the data source of one of them answers, and
that connection goes on.  The first failure ends all of them.  The connection on which it happened
closes its cursors.  Nobody closes those of the others: where a connection is shared the rows were
read at once and nothing is open, but a connection whose rows are streamed leaves its cursor as the
data source returned it.

Running one connection after another is one of the orders.

Main definitions:

* `ShardedSql.Cursor.Freed` — a cursor that is closed, or was behind reading its rows at once;
* `ShardedSql.Execution.received` — what an answer does to the cursors of a connection;
* `ShardedSql.Execution.Connection`, `ShardedSql.Execution.Reply` — connections on their way, with
  what their data sources returned to them, and the answers that they get;
* `ShardedSql.Execution.progress` — the connections behind some answers, in the order of these;
* `ShardedSql.Execution.Abandoned.Left` — what a query that failed closed and what it left.

Main results:

* `ShardedSql.Cursor.materialize_spec` — reading a cursor at once closes it;
* `ShardedSql.Execution.queryConnection_cons` — a connection gets one answer after another;
* `ShardedSql.Execution.going_step`, `ShardedSql.Execution.going_progress` — what each answer
  preserves, and what all of them do;
* `ShardedSql.Execution.progress_spec` — **what a query that fails has closed, and what it leaves**;
* `ShardedSql.Execution.query_leaves_open` — a query that fails with a cursor left open;
* `ShardedSql.Execution.exists_progress` — **running one connection after another is one order**.
-/

import ShardedSql.Execution
import ShardedSql.Proofs.Merging.Closing

set_option relaxedAutoImplicit false
set_option autoImplicit false

namespace ShardedSql

/-! ### Cursors that hold nothing open -/

namespace Cursor

/-- A cursor is closed as it is, or its rows were read at once and it was closed behind them; then
what is held of it may be used further. -/
def Freed (c held : Cursor) : Prop :=
  c.Closes held ∨
    ∃ rows after, c.materialize = (.ok rows, after) ∧ c.Closes after ∧ rows.Reaches held

theorem Freed.close {c held : Cursor} (h : c.Freed held) : c.Freed held.close.2 := by
  rcases h with ⟨mid, hmid, hheld⟩ | ⟨rows, after, hread, hclosed, hheld⟩
  · exact .inl ⟨mid, hmid, hheld.close⟩
  · exact .inr ⟨rows, after, hread, hclosed, hheld.close⟩

/-- Reading a cursor at once makes calls on it, and closes it if all rows could be read. -/
theorem materialize_spec (c : Cursor) :
    match c.materialize with
    | (.error _, after) => c.Reaches after
    | (.ok _, after) => c.Closes after := by
  have hget : [c][0]? = some c := rfl
  have hfold := (traced_foldUpTo (fun rows row => .ok (rows ++ [row])) (c.rest.length + 1) []
    hget).replays.reaches (.cons .refl .nil)
  unfold materialize foldRows
  generalize foldUpTo (fun rows row => .ok (rows ++ [row])) (c.rest.length + 1) [] c = read
    at hfold ⊢
  obtain ⟨x, d⟩ := read
  have hreaches : c.Reaches d := (List.forall₂_cons.1 hfold).1
  cases x with
  | error f => exact hreaches
  | ok rows =>
      have hclosed : c.Closes d.close.2 := ⟨d, hreaches, .refl⟩
      simp only
      generalize hclosing : d.close = closing at hclosed
      obtain ⟨y, e⟩ := closing
      cases y with
      | error f =>
          have hclose := hreaches.close
          rwa [hclosing] at hclose
      | ok _ => exact hclosed

/-- Closing cursors frees them. -/
theorem freed_released {returned held : List Cursor}
    (h : List.Forall₂ (fun c d => Freed c d ∨ Reaches c d) returned held) :
    List.Forall₂ Freed returned (released held) := by
  rw [released, closeAll_cursors, List.forall₂_map_right_iff]
  refine h.imp fun c d hd => ?_
  rcases hd with hfreed | hreaches
  · exact hfreed.close
  · exact .inl ⟨d, hreaches, .refl⟩

end Cursor

namespace Execution

/-! ### One answer after another -/

/-- The cursors of a connection after the answer to a statement. -/
def received (mode : ConnectionMode) (p : PhysicalSql) (opened : List Cursor)
    (answer : Outcome Cursor) : Except QueryFailure (List Cursor) :=
  match answer with
  | .error f => .error ⟨fault p f, Cursor.released opened⟩
  | .ok c =>
      match mode with
      | .streamed => .ok (opened ++ [c])
      | .shared =>
          match c.materialize with
          | (.error f, c) => .error ⟨fault p f, Cursor.released (opened ++ [c])⟩
          | (.ok held, _) => .ok (opened ++ [held])

/-- **A connection gets one answer after another.** -/
theorem queryConnection_cons {m : Type → Type} [Monad m] (ask : PhysicalSql → m (Outcome Cursor))
    (mode : ConnectionMode) (opened : List Cursor) (p : PhysicalSql) (rest : List PhysicalSql) :
    queryConnection ask mode opened (p :: rest) = ask p >>= fun answer =>
      match received mode p opened answer with
      | .error e => pure (.error e)
      | .ok opened => queryConnection ask mode opened rest := by
  rw [queryConnection]
  congr 1
  funext answer
  cases answer with
  | error f => rfl
  | ok c =>
      cases mode with
      | streamed => rfl
      | shared =>
          rw [received]
          simp only
          generalize c.materialize = read
          obtain ⟨x, d⟩ := read
          cases x <;> rfl

/-! ### Connections on their way -/

/-- A connection on its way. -/
structure Connection where
  mode : ConnectionMode
  /-- The statements that it has not run yet. -/
  statements : List PhysicalSql
  /-- The cursors that its data source returned to it. -/
  returned : List Cursor
  /-- These cursors as they are now. -/
  opened : List Cursor

/-- The data source of a connection answers the next statement of it. -/
structure Reply where
  /-- The number of the connection. -/
  connection : Nat
  answer : Outcome Cursor

/-- A query that failed. -/
structure Abandoned where
  fault : Fault
  /-- The number of the connection on which it happened. -/
  failed : Nat
  /-- The connections as they are then. -/
  connections : List Connection

namespace Connection

/-- A connection behind an answer to its next statement. -/
def answered (c : Connection) (rest : List PhysicalSql) (answer : Outcome Cursor)
    (opened : List Cursor) : Connection :=
  ⟨c.mode, rest, c.returned ++ answer.toOption.toList, opened⟩

/-- Every cursor that was returned to a connection is closed. -/
def Closed (c : Connection) : Prop := List.Forall₂ Cursor.Freed c.returned c.opened

/-- A connection on which nothing failed: what is shared was read and closed, and what is streamed
is there as it was returned. -/
def Going (c : Connection) : Prop :=
  match c.mode with
  | .shared => c.Closed
  | .streamed => c.opened = c.returned

end Connection

/-- The connections behind an answer.  Nothing is answered to a connection that has run all of its
statements. -/
def step (conns : List Connection) (r : Reply) : Except Abandoned (List Connection) :=
  match conns[r.connection]? with
  | none => .ok conns
  | some c =>
      match c.statements with
      | [] => .ok conns
      | p :: rest =>
          match received c.mode p c.opened r.answer with
          | .error e =>
              .error ⟨e.fault, r.connection,
                conns.set r.connection (c.answered rest r.answer e.opened)⟩
          | .ok opened => .ok (conns.set r.connection (c.answered rest r.answer opened))

/-- The connections behind some answers, in the order of these; the first failure ends it. -/
def progress (conns : List Connection) (replies : List Reply) :
    Except Abandoned (List Connection) :=
  replies.foldlM step conns

/-- The connections of a query before any answer. -/
def begin (conns : List (ConnectionMode × List PhysicalSql)) : List Connection :=
  conns.map fun c => ⟨c.1, c.2, [], []⟩

/-- A query that failed closed what was returned to the connection on which it happened, and left
the others as they were. -/
structure Abandoned.Left (a : Abandoned) : Prop where
  closed : ∃ c, a.connections[a.failed]? = some c ∧ c.Closed
  others : ∀ i c, i ≠ a.failed → a.connections[i]? = some c → c.Going

section

variable {conns : List Connection} {c : Connection}

/-- A cursor of a connection on which nothing failed is closed, or it can be closed as it is. -/
theorem Connection.Going.freed_or_reaches (h : c.Going) :
    List.Forall₂ (fun c d => Cursor.Freed c d ∨ Cursor.Reaches c d) c.returned c.opened := by
  obtain ⟨mode, statements, returned, opened⟩ := c
  cases mode with
  | shared => exact h.imp fun _ _ hfreed => .inl hfreed
  | streamed =>
      cases h
      exact List.forall₂_same.2 fun _ _ => .inr .refl

/-- What an answer does to a connection. -/
theorem Connection.Going.received (h : c.Going) (p : PhysicalSql) (rest : List PhysicalSql)
    (answer : Outcome Cursor) :
    match received c.mode p c.opened answer with
    | .error e => (c.answered rest answer e.opened).Closed
    | .ok opened => (c.answered rest answer opened).Going := by
  have hclose := h.freed_or_reaches
  obtain ⟨mode, statements, returned, opened⟩ := c
  cases answer with
  | error f =>
      change List.Forall₂ Cursor.Freed (returned ++ []) _
      rw [List.append_nil]
      exact Cursor.freed_released hclose
  | ok c =>
      cases mode with
      | streamed =>
          cases h
          rfl
      | shared =>
          have hread := c.materialize_spec
          rw [Execution.received]
          generalize hresult : c.materialize = read at hread ⊢
          obtain ⟨x, after⟩ := read
          cases x with
          | error f =>
              exact Cursor.freed_released
                (List.rel_append hclose (.cons (.inr hread) .nil))
          | ok held =>
              have hheld : c.Freed held := .inr ⟨held, after, hresult, hread, .refl⟩
              exact List.rel_append h (.cons hheld .nil)

/-- **What each answer preserves**, and what is left when it is a failure. -/
theorem going_step (h : ∀ c ∈ conns, c.Going) (r : Reply) :
    match step conns r with
    | .error a => a.Left ∧ a.connections.map (·.mode) = conns.map (·.mode)
    | .ok now => (∀ c ∈ now, c.Going) ∧ now.map (·.mode) = conns.map (·.mode) := by
  unfold step
  cases hget : conns[r.connection]? with
  | none => exact ⟨h, rfl⟩
  | some c =>
      obtain ⟨hlt, hc⟩ := List.getElem?_eq_some_iff.1 hget
      simp only
      cases c.statements with
      | nil => exact ⟨h, rfl⟩
      | cons p rest =>
          have hmodes (opened : List Cursor) :
              (conns.set r.connection (c.answered rest r.answer opened)).map (·.mode) =
                conns.map (·.mode) := by
            have hset : (conns.map (·.mode)).set r.connection c.mode = conns.map (·.mode) := by
              rw [← hc, ← List.map_set, List.set_getElem_self]
            rw [List.map_set]
            exact hset
          have hreceived := (h c (hc ▸ List.getElem_mem hlt)).received p rest r.answer
          simp only
          generalize received c.mode p c.opened r.answer = x at hreceived ⊢
          cases x with
          | error e =>
              refine ⟨⟨⟨_, List.getElem?_set_self hlt, hreceived⟩, fun i d hne hd => ?_⟩, hmodes _⟩
              rw [List.getElem?_set_ne (Ne.symm hne)] at hd
              exact h d (List.mem_of_getElem? hd)
          | ok opened =>
              refine ⟨fun d hd => ?_, hmodes opened⟩
              rcases List.mem_or_eq_of_mem_set hd with hd | rfl
              · exact h d hd
              · exact hreceived

/-- What all answers preserve. -/
theorem going_progress (h : ∀ c ∈ conns, c.Going) (replies : List Reply) :
    match progress conns replies with
    | .error a => a.Left ∧ a.connections.map (·.mode) = conns.map (·.mode)
    | .ok now => (∀ c ∈ now, c.Going) ∧ now.map (·.mode) = conns.map (·.mode) := by
  induction replies generalizing conns with
  | nil => exact ⟨h, rfl⟩
  | cons r replies ih =>
      have hstep := going_step h r
      rw [progress, List.foldlM_cons]
      cases hnow : step conns r with
      | error a =>
          rw [hnow] at hstep
          exact hstep
      | ok now =>
          rw [hnow] at hstep
          obtain ⟨hgoing, hmodes⟩ := hstep
          have hrest := ih hgoing
          rw [hmodes] at hrest
          exact hrest

/-- **What a query that fails has closed, and what it leaves.**  In whichever order the connections
make progress, every cursor is closed that was returned to the connection on which it failed or to
one that is shared; what was returned to another one that is streamed is left as it was. -/
theorem progress_spec (conns : List (ConnectionMode × List PhysicalSql)) (replies : List Reply) :
    match progress (begin conns) replies with
    | .error a => a.Left ∧ a.connections.map (·.mode) = conns.map (·.1)
    | .ok now => (∀ c ∈ now, c.Going) ∧ now.map (·.mode) = conns.map (·.1) := by
  have hbegin : ∀ c ∈ begin conns, c.Going := by
    intro c hc
    obtain ⟨conn, -, rfl⟩ := List.mem_map.1 hc
    cases conn.1 with
    | shared => exact .nil
    | streamed => rfl
  have hmodes : (begin conns).map (·.mode) = conns.map (·.1) := by
    rw [begin, List.map_map]
    rfl
  have hspec := going_progress hbegin replies
  rwa [hmodes] at hspec

end

/-- Two statements, each with a connection of its own.  The data source of the second one refuses,
and the cursor of the first one is not closed. -/
theorem query_leaves_open :
    ∃ e, query (m := Id) ⟨["ds_0", "ds_1"], fun p =>
        if p.dataSource = "ds_0" then .ok (.ofRows ["n"] [[.int 1]])
        else .error (.execution "connection refused"), fun _ => .ok 0⟩ ⟨1, Nat.one_pos⟩
          [⟨"ds_0", "SELECT 0", []⟩, ⟨"ds_1", "SELECT 1", []⟩] = .error e ∧
      e.opened.map Cursor.isClosed = [false] := by
  have hgroup : connections (ConnectionLimit.group ⟨1, Nat.one_pos⟩
      [⟨"ds_0", "SELECT 0", []⟩, ⟨"ds_1", "SELECT 1", []⟩]) =
      [(.streamed, [⟨"ds_0", "SELECT 0", []⟩]), (.streamed, [⟨"ds_1", "SELECT 1", []⟩])] := by
    simp [connections, ConnectionLimit.group, PhysicalSql.dataSources, ConnectionLimit.groupOf,
      ConnectionLimit.perConnection, chunks, List.eraseDups_cons]
  have hsources : checkSources ["ds_0", "ds_1"] (ConnectionLimit.group ⟨1, Nat.one_pos⟩
      [⟨"ds_0", "SELECT 0", []⟩, ⟨"ds_1", "SELECT 1", []⟩]) = .ok () := by
    simp [checkSources, ConnectionLimit.group, PhysicalSql.dataSources, ConnectionLimit.groupOf,
      List.eraseDups_cons]
  refine ⟨⟨fault ⟨"ds_1", "SELECT 1", []⟩ (.execution "connection refused"),
    [.ofRows ["n"] [[.int 1]]]⟩, ?_, rfl⟩
  simp only [query, hsources, hgroup]
  rfl

/-! ### One connection after another -/

section

variable (ask : PhysicalSql → Outcome Cursor)

/-- Answers to one connection take it to where running it alone does. -/
theorem exists_progress_connection (before after : List Connection) (c : Connection) :
    ∃ replies, match Id.run (queryConnection ask c.mode c.opened c.statements),
        progress (before ++ c :: after) replies with
      | .error e, .error a =>
          e.fault = a.fault ∧ ∃ d, a.connections = before ++ d :: after ∧ d.opened = e.opened
      | .ok cs, .ok now => ∃ d, now = before ++ d :: after ∧ d.opened = cs
      | _, _ => False := by
  obtain ⟨mode, statements, returned, opened⟩ := c
  induction statements generalizing returned opened with
  | nil => exact ⟨[], ⟨mode, [], returned, opened⟩, rfl, rfl⟩
  | cons p rest ih =>
      have hquery : Id.run (queryConnection ask mode opened (p :: rest)) =
          match received mode p opened (ask p) with
          | .error e => .error e
          | .ok opened => Id.run (queryConnection ask mode opened rest) := by
        rw [queryConnection_cons]
        change Id.run (match received mode p opened (ask p) with
          | .error e => pure (.error e)
          | .ok opened => queryConnection ask mode opened rest) = _
        cases received mode p opened (ask p) <;> rfl
      have hget : (before ++ ⟨mode, p :: rest, returned, opened⟩ :: after)[before.length]? =
          some ⟨mode, p :: rest, returned, opened⟩ := by simp
      have hset (d : Connection) :
          (before ++ ⟨mode, p :: rest, returned, opened⟩ :: after).set before.length d =
            before ++ d :: after := by simp
      simp only [hquery]
      cases hreceived : received mode p opened (ask p) with
      | error e =>
          refine ⟨[⟨before.length, ask p⟩], ?_⟩
          simp only [progress, List.foldlM_cons, step, hget, hreceived, hset]
          exact ⟨rfl, _, rfl, rfl⟩
      | ok now =>
          obtain ⟨replies, hreplies⟩ := ih (returned ++ (ask p).toOption.toList) now
          refine ⟨⟨before.length, ask p⟩ :: replies, ?_⟩
          simp only [progress, List.foldlM_cons, step, hget, hreceived, hset]
          exact hreplies

/-- **Running one connection after another is one order** in which they make progress: it ends the
same, with the same cursors. -/
theorem exists_progress (done : List Connection)
    (conns : List (ConnectionMode × List PhysicalSql)) :
    ∃ replies, match Id.run (queryConnections ask (done.flatMap (·.opened)) conns),
        progress (done ++ begin conns) replies with
      | .error e, .error a => e.fault = a.fault ∧ e.opened = a.connections.flatMap (·.opened)
      | .ok cs, .ok now => cs = now.flatMap (·.opened)
      | _, _ => False := by
  induction conns generalizing done with
  | nil =>
      refine ⟨[], ?_⟩
      rw [begin, List.map_nil, List.append_nil]
      rfl
  | cons conn conns ih =>
      obtain ⟨mode, statements⟩ := conn
      obtain ⟨first, hfirst⟩ :=
        exists_progress_connection ask done (begin conns) ⟨mode, statements, [], []⟩
      have hquery : Id.run (queryConnections ask (done.flatMap (·.opened))
            ((mode, statements) :: conns)) =
          match Id.run (queryConnection ask mode [] statements) with
          | .error e => .error { e with opened := done.flatMap (·.opened) ++ e.opened }
          | .ok more => Id.run (queryConnections ask (done.flatMap (·.opened) ++ more) conns) := by
        rw [queryConnections]
        change Id.run (match Id.run (queryConnection ask mode [] statements) with
          | .error e => pure (.error { e with opened := done.flatMap (·.opened) ++ e.opened })
          | .ok more => queryConnections ask (done.flatMap (·.opened) ++ more) conns) = _
        cases Id.run (queryConnection ask mode [] statements) <;> rfl
      have hbegin : begin ((mode, statements) :: conns) =
          ⟨mode, statements, [], []⟩ :: begin conns := rfl
      rw [hquery, hbegin]
      simp only at hfirst
      generalize Id.run (queryConnection ask mode [] statements) = x at hfirst ⊢
      cases hprogress : progress (done ++ ⟨mode, statements, [], []⟩ :: begin conns) first with
      | error a =>
          rw [hprogress] at hfirst
          cases x with
          | ok cs => exact hfirst.elim
          | error e =>
              obtain ⟨hfault, d, hconns, hopened⟩ := hfirst
              refine ⟨first, ?_⟩
              rw [hprogress]
              refine ⟨hfault, ?_⟩
              have hnone : (begin conns).flatMap (·.opened) = [] := by
                rw [begin, List.flatMap_map, List.flatMap_eq_nil_iff]
                exact fun _ _ => rfl
              rw [hconns, List.flatMap_append, List.flatMap_cons, hnone, List.append_nil, hopened]
      | ok now =>
          rw [hprogress] at hfirst
          cases x with
          | error e => exact hfirst.elim
          | ok more =>
              obtain ⟨d, rfl, rfl⟩ := hfirst
              obtain ⟨rest, hrest⟩ := ih (done ++ [d])
              refine ⟨first ++ rest, ?_⟩
              have hboth : progress (done ++ ⟨mode, statements, [], []⟩ :: begin conns)
                  (first ++ rest) = progress (done ++ d :: begin conns) rest := by
                rw [progress, List.foldlM_append]
                change progress _ first >>= _ = _
                rw [hprogress]
                rfl
              rw [hboth, List.append_cons]
              rw [List.flatMap_append, List.flatMap_singleton] at hrest
              exact hrest

end

end Execution

end ShardedSql
