/-
**Merging leaves no cursor open.**

A merge hands its cursors on from one part to another: to a queue, to groups, to a cut.  Whichever
part has them, and whether or not it fails, it has each cursor after some calls on it, in the order
in which the cursors were given.  So closing what is there at the end closes all that were given.

Main definitions:

* `ShardedSql.Cursor.Reaches`, `ShardedSql.Cursor.Closes` — a cursor after some calls on it, and
  after some of which one closes it;
* `ShardedSql.Cursor.ClosingEnds` — how closing some cursors ends;
* `ShardedSql.MergeFailure.Keeps` — a part of a merge that has all cursors it was given, whether or
  not it failed;
* `ShardedSql.Merged.ask`, `ShardedSql.Merged.run` — a merged result after some calls on it;
* `ShardedSql.Merged.Owns` — a merged result closes some cursors, however it is ended.

Main results:

* `ShardedSql.Replays.reaches` — calls are made on the cursors that they say;
* `ShardedSql.Cursor.closingEnds_closeAll` — closing reports the first failure in order;
* `ShardedSql.MergedRows.keeps_ofCursors`, `ShardedSql.Merged.keeps_ofSelect` — a merge has all
  cursors that it was given;
* `ShardedSql.Merged.reaches_run` — reading goes on with the same cursors;
* `ShardedSql.Merged.closes_or_owns` — **a merge that fails has closed every cursor, and a merged
  result owns all of them whatever it was asked**.
-/

import ShardedSql.Proofs.Merging.Calls

set_option relaxedAutoImplicit false
set_option autoImplicit false

namespace ShardedSql

variable {α β : Type}

/-! ### Cursors after some calls -/

namespace Cursor

/-- A cursor after some calls on it.  Reading a value changes nothing. -/
inductive Reaches (c : Cursor) : Cursor → Prop
  | refl : Reaches c c
  | next {d : Cursor} (h : Reaches c d) : Reaches c d.next.2
  | close {d : Cursor} (h : Reaches c d) : Reaches c d.close.2

/-- A cursor after some calls on it, one of which closes it. -/
def Closes (c d : Cursor) : Prop := ∃ mid : Cursor, c.Reaches mid ∧ mid.close.2.Reaches d

/-- Closing cursors closes those that they come from. -/
theorem closes_map_close {before after : List Cursor} (h : List.Forall₂ Reaches before after) :
    List.Forall₂ Closes before (after.map fun c => c.close.2) := by
  rw [List.forall₂_map_right_iff]
  exact h.imp fun _ d hreaches => ⟨d, hreaches, .refl⟩

/-- How closing some cursors ends: the first failure of those in order is reported. -/
def ClosingEnds (cs : List Cursor) (x : Outcome Unit) : Prop :=
  match cs.findSome? fun c => c.close.1.failure? with
  | none => x = .ok ()
  | some f => ∃ e, x = .error e ∧ Reports e f

theorem closingEnds_closeAll (cs : List Cursor) : ClosingEnds cs (closeAll cs).1 := by
  induction cs with
  | nil => rfl
  | cons c rest ih =>
      rw [ClosingEnds, List.findSome?_cons, closeAll]
      generalize c.close = p
      obtain ⟨x, d⟩ := p
      cases x with
      | error f => exact ⟨fault f, rfl, reports_fault f⟩
      | ok _ => exact ih

end Cursor

open Cursor (Reaches Closes ClosingEnds)

/-- **Calls are made on the cursors that they say**: behind them each cursor stands in its place,
after the calls on it. -/
theorem Replays.reaches {start before after : List Cursor} {calls : List PhysicalCall}
    (h : Replays before calls after) (hstart : List.Forall₂ Reaches start before) :
    List.Forall₂ Reaches start after := by
  induction h with
  | done _ => exact hstart
  | next hget _ ih =>
      refine ih (Lists.forall₂_set hstart fun a c hc hreaches => ?_)
      cases hget.symm.trans hc
      exact hreaches.next
  | value _ _ _ ih => exact ih hstart

/-! ### Making merged rows -/

namespace MergeFailure

/-- A part of a merge that was given some cursors has them all after some calls, whether or not it
failed. -/
def Keeps (cursors : List Cursor) (holds : α → List Cursor) (x : Except MergeFailure α) : Prop :=
  match x with
  | .error e => List.Forall₂ Reaches cursors e.cursors
  | .ok a => List.Forall₂ Reaches cursors (holds a)

variable {cursors now : List Cursor} {holds : α → List Cursor} {held : β → List Cursor}

/-- What touches no cursor keeps them. -/
theorem keeps_guard (h : List.Forall₂ Reaches cursors now) (x : Outcome α) :
    Keeps cursors (fun _ => now) (guard now x) := by
  cases x <;> exact h

theorem Keeps.bind {x : Except MergeFailure α} {f : α → Except MergeFailure β}
    (hx : Keeps cursors holds x)
    (hf : ∀ a, List.Forall₂ Reaches cursors (holds a) → Keeps cursors held (f a)) :
    Keeps cursors held (x >>= f) := by
  cases x with
  | error e => exact hx
  | ok a => exact hf a hx

end MergeFailure

open MergeFailure (Keeps keeps_guard)

namespace MergedRows

variable {given cursors : List Cursor}

theorem keeps_streamGroups (keys : List SortKey) (groupColumns : List Nat)
    (columns : List AggregateColumn) (h : List.Forall₂ Reaches given cursors) :
    Keeps given MergedRows.cursors (streamGroups keys groupColumns columns cursors) := by
  have hstart := (GroupStream.traced_start keys groupColumns columns cursors).replays.reaches h
  rw [streamGroups]
  generalize GroupStream.start keys groupColumns columns cursors = p at hstart ⊢
  obtain ⟨x, s⟩ := p
  cases x <;> exact hstart

theorem keeps_holdGroups (keys : List SortKey) (groupColumns : List Nat)
    (columns : List AggregateColumn) (h : List.Forall₂ Reaches given cursors) :
    Keeps given MergedRows.cursors (holdGroups keys groupColumns columns cursors) := by
  have hgroups := (Group.traced_ofCursors groupColumns keys columns cursors).replays.reaches h
  rw [holdGroups]
  generalize Group.ofCursors groupColumns keys columns cursors = p at hgroups ⊢
  obtain ⟨x, after⟩ := p
  cases x <;> exact hgroups

theorem keeps_order (keys : List SortKey) (h : List.Forall₂ Reaches given cursors) :
    Keeps given MergedRows.cursors (order keys cursors) := by
  have hstart := (CursorQueue.traced_start keys cursors).replays.reaches h
  rw [order]
  generalize CursorQueue.start keys cursors = p at hstart ⊢
  obtain ⟨x, q⟩ := p
  cases x <;> exact hstart

theorem keeps_group (s : Select) (labels : List String) (keys : List SortKey)
    (h : List.Forall₂ Reaches given cursors) :
    Keeps given MergedRows.cursors (group s labels keys cursors) := by
  unfold group
  refine (keeps_guard h _).bind fun columns h => ?_
  refine (keeps_guard h _).bind fun groupKeys h => ?_
  simp only
  split
  · exact keeps_streamGroups keys _ columns h
  · exact keeps_holdGroups keys _ columns h

/-- **However the rows are merged, all cursors are there.** -/
theorem keeps_ofCursors (s : Select) (labels : List String)
    (h : List.Forall₂ Reaches given cursors) :
    Keeps given MergedRows.cursors (ofCursors s labels cursors) := by
  unfold ofCursors
  refine (keeps_guard h _).bind fun keys h => ?_
  split
  · exact keeps_group s labels keys h
  · split
    · exact keeps_holdGroups keys _ [] h
    · split
      · exact h
      · exact keeps_order keys h

theorem reaches_next (m : MergedRows) (h : List.Forall₂ Reaches given m.cursors) :
    List.Forall₂ Reaches given m.next.2.cursors :=
  m.traced_next.replays.reaches h

/-- Closing merged rows closes each cursor once more, whether or not others fail. -/
theorem cursors_close (m : MergedRows) :
    m.close.2.cursors = m.cursors.map fun c => c.close.2 := by
  cases m with
  | single c => rfl
  | _ => exact Cursor.closeAll_cursors _

theorem closingEnds_close (m : MergedRows) : ClosingEnds m.cursors m.close.1 := by
  cases m with
  | single c =>
      have hclose := Cursor.closingEnds_closeAll [c]
      rw [Cursor.closeAll, Cursor.closeAll] at hclose
      rw [close]
      generalize c.close = p at hclose ⊢
      obtain ⟨x, d⟩ := p
      cases x <;> exact hclose
  | _ => exact Cursor.closingEnds_closeAll _

end MergedRows

/-! ### Cutting a window out -/

namespace Cut

variable {given : List Cursor}

theorem reaches_skip (n : Nat) (m : MergedRows) (h : List.Forall₂ Reaches given m.cursors) :
    List.Forall₂ Reaches given (skip n m).2.cursors := by
  induction n generalizing m with
  | zero => exact h
  | succ n ih =>
      have hnext := m.reaches_next h
      rw [skip]
      generalize m.next = p at hnext ⊢
      obtain ⟨x, m'⟩ := p
      cases x with
      | error f => exact hnext
      | ok found =>
          cases found with
          | false => exact hnext
          | true => exact ih m' hnext

theorem reaches_next (c : Cut) (m : MergedRows) (h : List.Forall₂ Reaches given m.cursors) :
    List.Forall₂ Reaches given (c.next m).2.2.cursors := by
  unfold next
  split
  · exact h
  · split
    · exact m.reaches_next h
    · simp only
      split
      · exact m.reaches_next h
      · exact h

end Cut

/-! ### Merged results -/

namespace Merged

variable {given : List Cursor}

theorem keeps_cutFor (d : Dialect) (s : Select) (parameters : List Value) {rows : MergedRows}
    (h : List.Forall₂ Reaches given rows.cursors) :
    Keeps given cursors (cutFor d s parameters rows) := by
  unfold cutFor
  refine (keeps_guard h _).bind fun window h => ?_
  cases window with
  | none => exact h
  | some w =>
      simp only
      split
      · have hskip := Cut.reaches_skip w.skipped.toNat rows h
        rw [cutOut]
        generalize Cut.skip w.skipped.toNat rows = p at hskip ⊢
        obtain ⟨x, rows'⟩ := p
        cases x <;> exact hskip
      · exact h

theorem keeps_ofSelect (rule : Rule) (d : Dialect) (s : Select) (parameters : List Value)
    (first : Cursor) (rest : List Cursor)
    (h : List.Forall₂ Reaches given (first :: rest)) :
    Keeps given cursors (ofSelect rule d s parameters first rest) := by
  unfold ofSelect
  cases rest with
  | nil => exact h
  | cons second rest =>
      refine (MergedRows.keeps_ofCursors s first.labels h).bind fun rows h => ?_
      exact (keeps_cutFor d s parameters h).bind fun merged h => h

/-- What is asked of a merged result. -/
inductive Request where
  | next
  | value (column : Nat)
  deriving Repr, DecidableEq, Inhabited

/-- A merged result after a call on it.  Reading a value changes nothing. -/
def ask (m : Merged) : Request → Merged
  | .next => m.next.2
  | .value _ => m

/-- A merged result after some calls on it, whether or not they fail. -/
def run (m : Merged) (calls : List Request) : Merged := calls.foldl ask m

theorem reaches_ask (m : Merged) (call : Request) (h : List.Forall₂ Reaches given m.cursors) :
    List.Forall₂ Reaches given (m.ask call).cursors := by
  cases call with
  | value column => exact h
  | next =>
      rw [ask, next]
      cases m.cut with
      | none => exact m.rows.reaches_next h
      | some cut => exact cut.reaches_next m.rows h

/-- **Reading goes on with the same cursors.** -/
theorem reaches_run (m : Merged) (calls : List Request)
    (h : List.Forall₂ Reaches given m.cursors) :
    List.Forall₂ Reaches given (m.run calls).cursors := by
  induction calls generalizing m with
  | nil => exact h
  | cons call calls ih => exact ih (m.ask call) (m.reaches_ask call h)

/-- A merged result owns some cursors: it has each of them after some calls, and closes each of them
when it is closed and when it is not used any longer. -/
structure Owns (m : Merged) (given : List Cursor) : Prop where
  reaches : List.Forall₂ Reaches given m.cursors
  /-- Closing goes on when a cursor fails to close. -/
  closes : List.Forall₂ Closes given m.close.2.cursors
  /-- The first cursor that failed to close is reported. -/
  closing_ends : ClosingEnds m.cursors m.close.1
  releases : List.Forall₂ Closes given m.release

theorem owns_of_reaches {m : Merged} (h : List.Forall₂ Reaches given m.cursors) : m.Owns given := by
  have hclose : List.Forall₂ Closes given m.close.2.cursors := by
    have hcursors : m.close.2.cursors = m.cursors.map fun c => c.close.2 := m.rows.cursors_close
    rw [hcursors]
    exact Cursor.closes_map_close h
  exact ⟨h, hclose, m.rows.closingEnds_close, hclose⟩

/-- A failure closes every cursor that is there. -/
theorem closes_closing {x : Except MergeFailure Merged} (h : Keeps given cursors x) :
    match closing x with
    | .error e => List.Forall₂ Closes given e.cursors
    | .ok m => List.Forall₂ Reaches given m.cursors := by
  cases x with
  | error e =>
      change List.Forall₂ Closes given (Cursor.closeAll e.cursors).2
      rw [Cursor.closeAll_cursors]
      exact Cursor.closes_map_close h
  | ok m => exact h

/-- **Merging leaves no cursor open.**  A merge that fails has closed every cursor that it was
given, and a merged result owns all of them, whatever it was asked and whether or not that
failed. -/
theorem closes_or_owns (rule : Rule) (d : Dialect) (statement : Statement)
    (parameters : List Value) (given : List Cursor) :
    match ofCursors rule d statement parameters given with
    | .error e => List.Forall₂ Closes given e.cursors
    | .ok m => ∀ calls : List Request, (m.run calls).Owns given := by
  have hgiven : List.Forall₂ Reaches given given := List.forall₂_same.2 fun _ _ => .refl
  have hmade : match ofCursors rule d statement parameters given with
      | .error e => List.Forall₂ Closes given e.cursors
      | .ok m => List.Forall₂ Reaches given m.cursors := by
    cases given with
    | nil => exact .nil
    | cons first rest =>
        cases statement with
        | select s => exact closes_closing (keeps_ofSelect rule d s parameters first rest hgiven)
        | _ => exact hgiven
  cases hmerge : ofCursors rule d statement parameters given with
  | error e =>
      rw [hmerge] at hmade
      exact hmade
  | ok m =>
      rw [hmerge] at hmade
      exact fun calls => owns_of_reaches (m.reaches_run calls hmade)

end Merged

end ShardedSql
