/-
**The calls on cursors that merging makes.**

Merging moves its cursors on and reads their columns, and any of these calls may fail.  The calls
that a function makes are listed here beside it, in their order and each with its answer.  Such a
list can be replayed: made again one after another, the calls take the cursors to where the function
left them and give the answers that it says.  And a function never goes on behind a call that
failed: it fails itself, with the failure as one of merging.

Both are proved of one function after another.  What follows a success is put behind it, so that the
lists grow as the functions do.

Main definitions:

* `ShardedSql.PhysicalCall` — a call on one of several cursors, with its answer;
* `ShardedSql.Cursor.Reports` — a failure of merging that reports one of a cursor;
* `ShardedSql.Replays` — the calls that take cursors from one state to another;
* `ShardedSql.Traced` — **calls that can be replayed and none of whose failures is passed over**;
* `ShardedSql.CursorQueue.nextCalls`, `ShardedSql.GroupStream.nextCalls`,
  `ShardedSql.MergedRows.nextCalls` — the calls of moving on in merged rows;
* `ShardedSql.GroupStream.Gathers` — the ways in which rows are taken in to a group;
* `ShardedSql.Group.collectCalls` — the calls of grouping all rows at once.

Main results:

* `ShardedSql.Traced.bind` — one computation after another;
* `ShardedSql.GroupStream.gathers_gather` — rows are taken in to a group in one of those ways;
* `ShardedSql.CursorQueue.traced_pull`, `ShardedSql.CursorQueue.traced_next`,
  `ShardedSql.GroupStream.traced_next`, `ShardedSql.Group.traced_collect` — the functions;
* `ShardedSql.MergedRows.traced_next` — **moving on in merged rows passes no failure over**.
-/

import ShardedSql.Merged.OfCursors
import ShardedSql.Proofs.Lists
import ShardedSql.Proofs.Outcome

set_option relaxedAutoImplicit false
set_option autoImplicit false

namespace ShardedSql

variable {α β : Type}

/-! ### Calls -/

/-- A call on the cursor with a number, and the answer. -/
inductive PhysicalCall where
  | next (cursor : Nat) (answer : Outcome Bool)
  | value (cursor column : Nat) (answer : Outcome Value)

/-- The failure of an outcome. -/
def Outcome.failure? (x : Outcome α) : Option Fault :=
  match x with
  | .ok _ => none
  | .error f => some f

theorem Outcome.failure?_eq_some {x : Outcome α} {f : Fault} :
    Outcome.failure? x = some f ↔ x = .error f := by
  cases x <;> simp [failure?]

/-- How a call failed, if it did. -/
def PhysicalCall.failure? : PhysicalCall → Option Fault
  | .next _ answer => answer.failure?
  | .value _ _ answer => answer.failure?

namespace Cursor

/-- The failure of a cursor is reported as one of merging. -/
@[simp] theorem kind_fault (f : Fault) : (fault f).kind = .merge := by
  unfold fault
  split
  · assumption
  · rfl

/-- A failure of merging that reports a failure of a cursor: it is that one, or has it as its
cause. -/
structure Reports (e f : Fault) : Prop where
  kind : e.kind = .merge
  source : e = f ∨ e.cause? = some f

theorem reports_fault (f : Fault) : Reports (fault f) f := by
  refine ⟨kind_fault f, ?_⟩
  unfold fault
  split
  · exact .inl rfl
  · exact .inr (Fault.cause?_because _ f)

/-- The call that moves a cursor on. -/
def nextCall (i : Nat) (c : Cursor) : PhysicalCall := .next i c.next.1

/-- The calls that read some columns, ended by the first failure. -/
def readCalls (i : Nat) (c : Cursor) : List Nat → List PhysicalCall
  | [] => []
  | column :: rest =>
      .value i column (c.value column) ::
        match c.value column with
        | .ok _ => readCalls i c rest
        | .error _ => []

/-- The calls that read the row that a cursor stands on. -/
def rowCalls (i : Nat) (c : Cursor) : List PhysicalCall :=
  c.readCalls i (List.range c.labels.length)

end Cursor

/-! ### Replaying calls -/

/-- Some calls, made one after another, take cursors from one state to another and give the answers
that they say. -/
inductive Replays : List Cursor → List PhysicalCall → List Cursor → Prop
  | done (cs : List Cursor) : Replays cs [] cs
  | next {cs after : List Cursor} {calls : List PhysicalCall} {i : Nat} {c : Cursor}
      (hget : cs[i]? = some c) (hrest : Replays (cs.set i c.next.2) calls after) :
      Replays cs (.next i c.next.1 :: calls) after
  | value {cs after : List Cursor} {calls : List PhysicalCall} {i : Nat} {c : Cursor}
      (column : Nat) (hget : cs[i]? = some c) (hrest : Replays cs calls after) :
      Replays cs (.value i column (c.value column) :: calls) after

theorem Replays.append {cs mid after : List Cursor} {calls more : List PhysicalCall}
    (h : Replays cs calls mid) (hmore : Replays mid more after) :
    Replays cs (calls ++ more) after := by
  induction h with
  | done _ => exact hmore
  | next hget _ ih => exact .next hget (ih hmore)
  | value column hget _ ih => exact .value column hget (ih hmore)

/-- **Calls that a computation makes**: they can be replayed, and if one of them fails then the
computation fails with that failure as one of merging. -/
structure Traced (before : List Cursor) (calls : List PhysicalCall) (after : List Cursor)
    (x : Outcome α) : Prop where
  replays : Replays before calls after
  propagates : ∀ call ∈ calls, ∀ f, call.failure? = some f → x = .error (Cursor.fault f)

namespace Traced

variable {cs mid after : List Cursor} {calls more : List PhysicalCall} {x : Outcome α}
  {y : Outcome β}

/-- Without a call nothing happens to the cursors. -/
theorem pure (x : Outcome α) : Traced cs [] cs x :=
  ⟨.done cs, fun _ h => absurd h List.not_mem_nil⟩

/-- Only how a computation fails counts. -/
theorem mono (h : Traced cs calls after x) (hxy : ∀ f, x = .error f → y = .error f) :
    Traced cs calls after y :=
  ⟨h.replays, fun call hcall f hf => hxy _ (h.propagates call hcall f hf)⟩

/-- A failure is passed on. -/
theorem fail {f : Fault} (h : Traced cs calls after (.error f : Outcome α)) :
    Traced cs calls after (.error f : Outcome β) :=
  h.mono fun _ he => by cases he; rfl

/-- Behind a success nothing has to be reported. -/
theorem succeed {a : α} (h : Traced cs calls after (.ok a : Outcome α)) (y : Outcome β) :
    Traced cs calls after y :=
  h.mono fun _ he => by cases he

/-- Behind a success other calls are made. -/
theorem bind {a : α} (h : Traced cs calls mid (.ok a : Outcome α))
    (hmore : Traced mid more after y) :
    Traced cs (calls ++ more) after y := by
  refine ⟨h.replays.append hmore.replays, fun call hcall f hf => ?_⟩
  rcases List.mem_append.1 hcall with hcall | hcall
  · cases h.propagates call hcall f hf
  · exact hmore.propagates call hcall f hf

/-- Of the calls of a success none failed. -/
theorem failure?_eq_none {a : α} (h : Traced cs calls after (.ok a : Outcome α)) :
    ∀ call ∈ calls, call.failure? = none := by
  intro call hcall
  cases hf : call.failure? with
  | none => rfl
  | some f => cases h.propagates call hcall f hf

end Traced

namespace Cursor

variable {cs : List Cursor} {i : Nat} {c : Cursor}

/-- Moving a cursor on is one call. -/
theorem traced_advance (hget : cs[i]? = some c) :
    Traced cs [c.nextCall i] (cs.set i c.advance.2) c.advance.1 := by
  refine ⟨.next hget (.done _), fun call hcall f hf => ?_⟩
  have hadvance : c.advance.1 = c.next.1.mapError fault := rfl
  rw [List.mem_singleton.1 hcall] at hf
  rw [hadvance, Outcome.failure?_eq_some.1 hf]
  rfl

/-- Columns are read one after another until one cannot be read. -/
theorem traced_read (hget : cs[i]? = some c) (columns : List Nat) :
    Traced cs (c.readCalls i columns) cs (columns.mapM c.cell) := by
  induction columns with
  | nil => exact .pure _
  | cons column rest ih =>
      rw [readCalls, List.mapM_cons, cell]
      cases hvalue : c.value column with
      | error f =>
          have hreplay := Replays.value column hget (.done cs)
          rw [hvalue] at hreplay
          refine ⟨hreplay, fun call hcall f' hf' => ?_⟩
          rw [List.mem_singleton.1 hcall] at hf'
          cases hf'
          rfl
      | ok v =>
          have hreplay := Replays.value column hget ih.replays
          rw [hvalue] at hreplay
          refine ⟨hreplay, fun call hcall f' hf' => ?_⟩
          rcases List.mem_cons.1 hcall with rfl | hcall
          · cases hf'
          · rw [ih.propagates call hcall f' hf']
            rfl

theorem traced_row (hget : cs[i]? = some c) : Traced cs (c.rowCalls i) cs c.row :=
  traced_read hget _

end Cursor

/-! ### A queue of cursors -/

namespace CursorQueue

/-- The calls of pulling a cursor. -/
def pullCalls (q : CursorQueue) (i : Nat) : List PhysicalCall :=
  match q.cursors[i]? with
  | none => []
  | some c =>
      [c.nextCall i] ++
        match c.advance with
        | (.ok true, c) => c.readCalls i (q.keys.map (·.index))
        | _ => []

/-- The calls of pulling the cursors with some numbers, until that fails. -/
def pullAllCalls (q : CursorQueue) : List Nat → List PhysicalCall
  | [] => []
  | i :: rest =>
      q.pullCalls i ++
        match q.pull i with
        | (.ok (), q) => pullAllCalls q rest
        | (.error _, _) => []

/-- The calls of moving every cursor to its first row. -/
def startCalls (keys : List SortKey) (cursors : List Cursor) : List PhysicalCall :=
  pullAllCalls { cursors := cursors, keys := keys } (List.range cursors.length)

/-- The calls of moving to the next row of all. -/
def nextCalls (q : CursorQueue) : List PhysicalCall :=
  match q.current with
  | none => []
  | some i => { q with current := none }.pullCalls i

/-- The calls of reading the current row. -/
def rowCalls (q : CursorQueue) : List PhysicalCall :=
  match q.current with
  | none => []
  | some i =>
      match q.cursors[i]? with
      | none => []
      | some c => c.rowCalls i

/-- **Pulling a cursor passes no failure over.** -/
theorem traced_pull (q : CursorQueue) (i : Nat) :
    Traced q.cursors (q.pullCalls i) (q.pull i).2.cursors (q.pull i).1 := by
  unfold pullCalls pull
  cases hget : q.cursors[i]? with
  | none => exact .pure _
  | some c =>
      have hmoved := Cursor.traced_advance hget
      have hset : (q.cursors.set i c.advance.2)[i]? = some c.advance.2 :=
        List.getElem?_set_self (List.getElem?_eq_some_iff.1 hget).1
      have hread := Cursor.traced_read hset (q.keys.map (·.index))
      rw [List.mapM_map] at hread
      change Traced _ _ _ (q.keys.mapM fun k => c.advance.2.cell k.index) at hread
      simp only
      generalize c.advance = moved at hmoved hset hread ⊢
      obtain ⟨x, d⟩ := moved
      cases x with
      | error f => exact hmoved.fail
      | ok found =>
          cases found with
          | false => exact hmoved.succeed _
          | true =>
              simp only at hread ⊢
              cases hvalues : q.keys.mapM fun k => d.cell k.index with
              | error f =>
                  rw [hvalues] at hread
                  exact hmoved.bind (hread.fail)
              | ok values =>
                  rw [hvalues] at hread
                  exact hmoved.bind (hread.succeed _)

theorem traced_pullAll (q : CursorQueue) (idle : List Nat) :
    Traced q.cursors (q.pullAllCalls idle) (q.pullAll idle).2.cursors (q.pullAll idle).1 := by
  induction idle generalizing q with
  | nil => exact .pure _
  | cons i idle ih =>
      have hpull := traced_pull q i
      rw [pullAllCalls, pullAll]
      generalize q.pull i = p at hpull ⊢
      obtain ⟨x, q'⟩ := p
      cases x with
      | error f =>
          rw [List.append_nil]
          exact hpull
      | ok _ => exact hpull.bind (ih q')

theorem traced_start (keys : List SortKey) (cursors : List Cursor) :
    Traced cursors (startCalls keys cursors) (start keys cursors).2.cursors
      (start keys cursors).1 :=
  traced_pullAll { cursors := cursors, keys := keys } (List.range cursors.length)

theorem traced_next (q : CursorQueue) :
    Traced q.cursors q.nextCalls q.next.2.cursors q.next.1 := by
  unfold nextCalls next
  cases q.current with
  | none =>
      simp only [cursors_pop]
      exact .pure _
  | some i =>
      have hpull := traced_pull { q with current := none } i
      simp only
      generalize pull { q with current := none } i = p at hpull ⊢
      obtain ⟨x, q'⟩ := p
      cases x with
      | error f => exact hpull.fail
      | ok _ =>
          simp only [cursors_pop]
          exact hpull.succeed _

theorem traced_of_next {q q' : CursorQueue} {x : Outcome Bool} (h : q.next = (x, q')) :
    Traced q.cursors q.nextCalls q'.cursors x := by
  have hnext := q.traced_next
  rwa [h] at hnext

theorem traced_row (q : CursorQueue) : Traced q.cursors q.rowCalls q.cursors q.row := by
  unfold rowCalls row cursor?
  cases q.current with
  | none => exact .pure _
  | some i =>
      simp only [Option.bind_some]
      cases hget : q.cursors[i]? with
      | none => exact .pure _
      | some c => exact Cursor.traced_row hget

end CursorQueue

/-! ### One group after another -/

namespace GroupStream

/-- The calls of starting a stream of groups. -/
def startCalls (keys : List SortKey) (cursors : List Cursor) : List PhysicalCall :=
  CursorQueue.startCalls keys cursors ++
    match CursorQueue.start keys cursors with
    | (.ok (), q) => q.nextCalls
    | (.error _, _) => []

/-- The calls of taking a row and those behind it in to a group. -/
def gatherCalls : Nat → GroupStream → Group → Row → List PhysicalCall
  | n, s, g, row =>
      match g.mergeInto s.columns row with
      | .error _ => []
      | .ok g =>
          s.queue.nextCalls ++
            match s.queue.next with
            | (.ok true, q) =>
                let s := { s with queue := q, pending := true }
                s.queue.rowCalls ++
                  match s.keyedRow with
                  | .error _ => []
                  | .ok (key, row) =>
                      if key = g.key then
                        match n with
                        | 0 => []
                        | n + 1 => gatherCalls n s g row
                      else []
            | _ => []

/-- The calls of making the next group. -/
def nextCalls (s : GroupStream) : List PhysicalCall :=
  if s.pending then
    s.queue.rowCalls ++
      match s.keyedRow with
      | .error _ => []
      | .ok (key, row) => gatherCalls s.queue.size s (Group.start s.columns key row) row
  else []

theorem traced_start (keys : List SortKey) (groupColumns : List Nat)
    (columns : List AggregateColumn) (cursors : List Cursor) :
    Traced cursors (startCalls keys cursors)
      (start keys groupColumns columns cursors).2.queue.cursors
      (start keys groupColumns columns cursors).1 := by
  have hstart := CursorQueue.traced_start keys cursors
  unfold startCalls start
  generalize CursorQueue.start keys cursors = p at hstart ⊢
  obtain ⟨x, q⟩ := p
  cases x with
  | error f =>
      rw [List.append_nil]
      exact hstart
  | ok _ =>
      have hnext := q.traced_next
      refine hstart.bind ?_
      simp only
      generalize q.next = p at hnext ⊢
      obtain ⟨y, q'⟩ := p
      cases y with
      | error f => exact hnext.fail
      | ok pending => exact hnext.succeed _

/-- Reading the row that the queue stands on, with its key. -/
theorem traced_of_keyedRow {s : GroupStream} {x : Outcome (List Value × Row)}
    (h : s.keyedRow = x) : Traced s.queue.cursors s.queue.rowCalls s.queue.cursors x := by
  refine s.queue.traced_row.mono fun f hf => ?_
  rw [← h, keyedRow, hf]
  rfl

/-- The ways in which taking a row and those behind it in to a group goes on and ends, with the
stream behind it and the calls that are made. -/
inductive Gathers : Nat → GroupStream → Group → Row → Outcome Group → GroupStream →
    List PhysicalCall → Prop
  /-- The group refuses the row. -/
  | refused {n : Nat} {s : GroupStream} {g : Group} {row : Row} {f : Fault}
      (hmerge : g.mergeInto s.columns row = .error f) : Gathers n s g row (.error f) s []
  /-- No row can be moved to. -/
  | lost {n : Nat} {s : GroupStream} {g g₁ : Group} {row : Row} {q : CursorQueue} {f : Fault}
      (hmerge : g.mergeInto s.columns row = .ok g₁) (hmoved : s.queue.next = (.error f, q)) :
      Gathers n s g row (.error f) { s with queue := q } s.queue.nextCalls
  /-- There is no row behind. -/
  | ended {n : Nat} {s : GroupStream} {g g₁ : Group} {row : Row} {q : CursorQueue}
      (hmerge : g.mergeInto s.columns row = .ok g₁) (hmoved : s.queue.next = (.ok false, q)) :
      Gathers n s g row (.ok g₁) { s with queue := q, pending := false } s.queue.nextCalls
  /-- The row behind cannot be read. -/
  | unreadable {n : Nat} {s s' : GroupStream} {g g₁ : Group} {row : Row} {q : CursorQueue}
      {f : Fault} (hmerge : g.mergeInto s.columns row = .ok g₁)
      (hmoved : s.queue.next = (.ok true, q)) (hs' : s' = { s with queue := q, pending := true })
      (hread : s'.keyedRow = .error f) :
      Gathers n s g row (.error f) s' (s.queue.nextCalls ++ s'.queue.rowCalls)
  /-- The row behind has another key, or no further row is to be taken in. -/
  | stopped {n : Nat} {s s' : GroupStream} {g g₁ : Group} {row row' : Row} {q : CursorQueue}
      {key : List Value} (hmerge : g.mergeInto s.columns row = .ok g₁)
      (hmoved : s.queue.next = (.ok true, q)) (hs' : s' = { s with queue := q, pending := true })
      (hread : s'.keyedRow = .ok (key, row')) :
      Gathers n s g row (.ok g₁) s' (s.queue.nextCalls ++ s'.queue.rowCalls)
  /-- The row behind is taken in as well. -/
  | more {n : Nat} {s s' after : GroupStream} {g g₁ : Group} {row row' : Row} {q : CursorQueue}
      {x : Outcome Group} {calls : List PhysicalCall} (hmerge : g.mergeInto s.columns row = .ok g₁)
      (hmoved : s.queue.next = (.ok true, q)) (hs' : s' = { s with queue := q, pending := true })
      (hread : s'.keyedRow = .ok (g₁.key, row')) (hrest : Gathers n s' g₁ row' x after calls) :
      Gathers (n + 1) s g row x after (s.queue.nextCalls ++ (s'.queue.rowCalls ++ calls))

/-- **Taking rows in to a group goes in one of these ways.** -/
theorem gathers_gather (n : Nat) (s : GroupStream) (g : Group) (row : Row) :
    Gathers n s g row (gather n s g row).1 (gather n s g row).2 (gatherCalls n s g row) := by
  fun_induction gather n s g row with
  | case1 n s g row f hmerge =>
      rw [gatherCalls, hmerge]
      exact .refused hmerge
  | case2 n s g row g₁ hmerge f q hmoved =>
      rw [gatherCalls, hmerge]
      simp only [hmoved, List.append_nil]
      exact .lost hmerge hmoved
  | case3 n s g row g₁ hmerge q hmoved =>
      rw [gatherCalls, hmerge]
      simp only [hmoved, List.append_nil]
      exact .ended hmerge hmoved
  | case4 n s g row g₁ hmerge q hmoved s' f hread =>
      subst s'
      rw [gatherCalls, hmerge]
      simp only [hmoved, hread, List.append_nil]
      exact .unreadable hmerge hmoved rfl hread
  | case5 s g row g₁ hmerge q hmoved s' row' hread =>
      subst s'
      rw [gatherCalls, hmerge]
      simp only [hmoved, hread, if_pos, List.append_nil]
      exact .stopped hmerge hmoved rfl hread
  | case6 s g row g₁ hmerge q hmoved s' row' n hread ih =>
      subst s'
      rw [gatherCalls, hmerge]
      simp only [hmoved, hread, if_pos]
      exact .more hmerge hmoved rfl hread ih
  | case7 n s g row g₁ hmerge q hmoved s' key row' hread hother =>
      subst s'
      rw [gatherCalls, hmerge]
      simp only [hmoved, hread, if_neg hother, List.append_nil]
      exact .stopped hmerge hmoved rfl hread

theorem Gathers.traced {n : Nat} {s after : GroupStream} {g : Group} {row : Row}
    {x : Outcome Group} {calls : List PhysicalCall} (h : Gathers n s g row x after calls) :
    Traced s.queue.cursors calls after.queue.cursors x := by
  induction h with
  | refused _ => exact .pure _
  | lost _ hmoved => exact (CursorQueue.traced_of_next hmoved).fail
  | ended _ hmoved => exact (CursorQueue.traced_of_next hmoved).succeed _
  | unreadable _ hmoved hs' hread =>
      subst hs'
      exact (CursorQueue.traced_of_next hmoved).bind
        ((traced_of_keyedRow hread).fail)
  | stopped _ hmoved hs' hread =>
      subst hs'
      exact (CursorQueue.traced_of_next hmoved).bind
        ((traced_of_keyedRow hread).succeed _)
  | more _ hmoved hs' hread _ ih =>
      subst hs'
      exact (CursorQueue.traced_of_next hmoved).bind ((traced_of_keyedRow hread).bind ih)

theorem traced_next (s : GroupStream) :
    Traced s.queue.cursors s.nextCalls s.next.2.queue.cursors s.next.1 := by
  unfold nextCalls next
  split
  · cases hrow : s.keyedRow with
    | error f =>
        simp only [List.append_nil]
        exact (traced_of_keyedRow hrow).fail
    | ok p =>
        obtain ⟨key, row⟩ := p
        refine (traced_of_keyedRow hrow).bind ?_
        have hgather := (gathers_gather s.queue.size s (Group.start s.columns key row) row).traced
        simp only
        generalize gather s.queue.size s (Group.start s.columns key row) row = p at hgather ⊢
        obtain ⟨x, s'⟩ := p
        cases x with
        | error f => exact hgather.fail
        | ok g =>
            simp only
            cases g.finish s'.columns with
            | error f => exact hgather.succeed _
            | ok row => exact hgather.succeed _
  · exact .pure _

end GroupStream

/-! ### All rows at once -/

/-- The calls of a computation over at most `n` rows. -/
def Cursor.foldUpToCalls {σ : Type} (i : Nat) (step : σ → Row → Outcome σ) :
    Nat → σ → Cursor → List PhysicalCall
  | 0, _, _ => []
  | n + 1, s, c =>
      [c.nextCall i] ++
        match c.advance with
        | (.ok true, c) =>
            c.rowCalls i ++
              match c.row >>= step s with
              | .error _ => []
              | .ok s => foldUpToCalls i step n s c
        | _ => []

theorem Cursor.traced_foldUpTo {σ : Type} {cs : List Cursor} {i : Nat} {c : Cursor}
    (step : σ → Row → Outcome σ) (n : Nat) (s : σ) (hget : cs[i]? = some c) :
    Traced cs (foldUpToCalls i step n s c) (cs.set i (foldUpTo step n s c).2)
      (foldUpTo step n s c).1 := by
  have hlt := (List.getElem?_eq_some_iff.1 hget).1
  induction n generalizing cs s c with
  | zero =>
      have hsame : cs.set i c = cs := by
        rw [← (List.getElem?_eq_some_iff.1 hget).2, List.set_getElem_self]
      rw [foldUpToCalls, foldUpTo, hsame]
      exact .pure _
  | succ n ih =>
      have hmoved := traced_advance hget
      rw [foldUpToCalls, foldUpTo]
      generalize c.advance = moved at hmoved ⊢
      obtain ⟨x, d⟩ := moved
      cases x with
      | error f => exact hmoved.fail
      | ok found =>
          cases found with
          | false => exact hmoved.succeed _
          | true =>
              refine hmoved.bind ?_
              have hset : (cs.set i d)[i]? = some d := List.getElem?_set_self hlt
              have hrow := traced_row hset
              simp only
              cases hread : d.row with
              | error f =>
                  rw [hread] at hrow
                  have hstep : ((.error f : Outcome Row) >>= step s) = .error f := rfl
                  simp only [hstep, List.append_nil]
                  exact hrow.fail
              | ok row =>
                  rw [hread] at hrow
                  refine hrow.bind ?_
                  have hstep : ((.ok row : Outcome Row) >>= step s) = step s row := rfl
                  rw [hstep]
                  cases step s row with
                  | error f => exact .pure _
                  | ok s' =>
                      have hrest := ih s' hset (by rwa [List.length_set])
                      rwa [List.set_set] at hrest

namespace Group

/-- The calls of grouping the rows of some cursors, the first of which has a number. -/
def collectCalls (groupColumns : List Nat) (columns : List AggregateColumn) (i : Nat)
    (gs : List Group) : List Cursor → List PhysicalCall
  | [] => []
  | c :: rest =>
      Cursor.foldUpToCalls i (addRow groupColumns columns) (c.rest.length + 1) gs c ++
        match c.foldRows (addRow groupColumns columns) gs with
        | (.error _, _) => []
        | (.ok gs, _) => collectCalls groupColumns columns (i + 1) gs rest

/-- Cursors are read one after another; those before were read. -/
theorem traced_collect (groupColumns : List Nat) (columns : List AggregateColumn)
    (gs : List Group) (done cursors : List Cursor) :
    Traced (done ++ cursors) (collectCalls groupColumns columns done.length gs cursors)
      (done ++ (collect groupColumns columns gs cursors).2)
      (collect groupColumns columns gs cursors).1 := by
  induction cursors generalizing gs done with
  | nil => exact .pure _
  | cons c cursors ih =>
      have hget : (done ++ c :: cursors)[done.length]? = some c := by simp
      have hfold := Cursor.traced_foldUpTo (addRow groupColumns columns) (c.rest.length + 1) gs hget
      rw [List.set_append_right _ _ (Nat.le_refl _), Nat.sub_self, List.set_cons_zero] at hfold
      rw [collectCalls, collect]
      change Traced _ _ _ (c.foldRows (addRow groupColumns columns) gs).1 at hfold
      change Traced _ _ (done ++ (c.foldRows (addRow groupColumns columns) gs).2 :: cursors) _
        at hfold
      generalize c.foldRows (addRow groupColumns columns) gs = p at hfold ⊢
      obtain ⟨x, d⟩ := p
      cases x with
      | error f =>
          rw [List.append_nil]
          exact hfold
      | ok gs' =>
          have hrest := ih gs' (done ++ [d])
          rw [List.append_assoc, List.append_assoc, List.singleton_append, List.singleton_append,
            List.length_append, List.length_singleton] at hrest
          exact hfold.bind hrest

/-- The calls of grouping the rows of some cursors. -/
def ofCursorsCalls (groupColumns : List Nat) (columns : List AggregateColumn)
    (cursors : List Cursor) : List PhysicalCall :=
  collectCalls groupColumns columns 0 [] cursors

theorem traced_ofCursors (groupColumns : List Nat) (keys : List SortKey)
    (columns : List AggregateColumn) (cursors : List Cursor) :
    Traced cursors (ofCursorsCalls groupColumns columns cursors)
      (ofCursors groupColumns keys columns cursors).2
      (ofCursors groupColumns keys columns cursors).1 := by
  have hcollect := traced_collect groupColumns columns [] [] cursors
  refine hcollect.mono fun f hf => ?_
  change (collect groupColumns columns [] cursors).1 >>= rowsOf columns keys = _
  rw [hf]
  rfl

end Group

/-! ### Merged rows -/

namespace MergedRows

/-- The calls of moving on in chained cursors, at most `n` times to another one. -/
def chainNextCalls : Nat → List Cursor → Nat → List PhysicalCall
  | 0, _, _ => []
  | n + 1, cursors, i =>
      match cursors[i]? with
      | none => []
      | some c =>
          [c.nextCall i] ++
            match c.advance with
            | (.ok false, c) => chainNextCalls n (cursors.set i c) (i + 1)
            | _ => []

theorem traced_chainNext (n : Nat) (cursors : List Cursor) (i : Nat) :
    Traced cursors (chainNextCalls n cursors i) (chainNext n cursors i).2.cursors
      (chainNext n cursors i).1 := by
  induction n generalizing cursors i with
  | zero => exact .pure _
  | succ n ih =>
      rw [chainNextCalls, chainNext]
      cases hget : cursors[i]? with
      | none => exact .pure _
      | some c =>
          have hmoved := Cursor.traced_advance hget
          simp only
          generalize c.advance = moved at hmoved ⊢
          obtain ⟨x, d⟩ := moved
          cases x with
          | error f => exact hmoved.fail
          | ok found =>
              cases found with
              | true => exact hmoved.succeed _
              | false => exact hmoved.bind (ih (cursors.set i d) (i + 1))

/-- The calls of moving to the next row. -/
def nextCalls : MergedRows → List PhysicalCall
  | .held .. => []
  | .chained cursors i => chainNextCalls (cursors.length + 1) cursors i
  | .single c => [c.nextCall 0]
  | .ordered q => q.nextCalls
  | .grouped s => s.nextCalls

/-- **Moving on in merged rows passes no failure over.** -/
theorem traced_next (m : MergedRows) :
    Traced m.cursors m.nextCalls m.next.2.cursors m.next.1 := by
  cases m with
  | held rest current cursors => cases rest <;> exact .pure _
  | chained cursors i => exact traced_chainNext _ cursors i
  | single c => exact @Cursor.traced_advance [c] 0 c rfl
  | ordered q => exact q.traced_next
  | grouped s => exact s.traced_next

end MergedRows

end ShardedSql
