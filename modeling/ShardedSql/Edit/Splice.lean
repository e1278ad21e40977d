/-
**Making edits to a text.**

Edits are made from left to right.  Texts that are replaced may not overlap, except that of two
replacements with the same start and different stops only the later one is made.

Main definitions:

* `ShardedSql.Splice` — a text with edits that fit it, in the order in which they are made;
* `ShardedSql.Splice.ofEdits` — putting edits in order and checking them;
* `ShardedSql.Splice.render` — the edited text at a placement.

Main results:

* `ShardedSql.Splice.ofEdits_perm` — the edits that are made are those given.
-/

import ShardedSql.Edit
import ShardedSql.Text.Offset

set_option relaxedAutoImplicit false
set_option autoImplicit false

namespace ShardedSql

/-- A text with edits in the order in which they are made. -/
structure Splice where
  text : String
  edits : List Edit
  deriving Repr, DecidableEq, Inhabited

namespace Splice

/-! ### Checks -/

/-- An edit that does not fit a text. -/
def fault (message text : String) (e : Edit) : Fault :=
  let f := (Fault.ofKind .editing message).note "start" (toString e.start)
  let f :=
    match e.stop? with
    | some stop => f.note "stop" (toString stop)
    | none => f
  f.note "sql_length" (toString text.utf8ByteSize)

/-- The edit reaches behind the end of a text of some length, or stops before it starts. -/
def isOutside (length : Nat) (e : Edit) : Bool :=
  match e.stop? with
  | some stop => length ≤ stop || stop < e.start
  | none => length < e.start

/-- Checks edits in order, of which the last replacement before them was `last`. -/
def checkFrom (text : String) (last : Option (Nat × Nat)) : List Edit → Outcome Unit
  | [] => .ok ()
  | e :: rest =>
      if isOutside text.utf8ByteSize e then
        .error (fault "Token span is outside the SQL text" text e)
      else
        match e.stop?, last with
        | none, last => checkFrom text last rest
        | some stop, none => checkFrom text (some (e.start, stop)) rest
        | some stop, some (lastStart, lastStop) =>
            if e.start ≠ lastStart ∧ e.start ≤ lastStop then
              .error ((fault "Substituted spans overlap" text e)
                |>.note "previous_start" (toString lastStart)
                |>.note "previous_stop" (toString lastStop))
            else checkFrom text (some (e.start, stop)) rest

/-- The edits in the order in which they are made. -/
def arrange (edits : List Edit) : List Edit :=
  edits.mergeSort fun a b => (a.order b).isLE

/-- A text with edits, when they fit it. -/
def ofEdits (text : String) (edits : List Edit) : Outcome Splice := do
  checkFrom text none (arrange edits)
  pure ⟨text, arrange edits⟩

/-! ### Texts -/

/-- The bytes of the text between two places, on account of an edit. -/
def slice (s : Splice) (start stop : Nat) (e : Edit) : Outcome (List Char) :=
  match Text.slice? start stop s.text.toList with
  | some part => .ok part
  | none => .error (fault "Tokens overlap or split a character" s.text e)

/-- The edit is not made, as the next one replaces from the same place on. -/
def isSuperseded (e next : Edit) : Bool :=
  e.replaces && next.replaces && e.start = next.start && e.stop? ≠ next.stop?

/-- The place after an edit. -/
def keptFrom (s : Splice) (e : Edit) : Nat :=
  min (match e.stop? with
    | some stop => stop + 1
    | none => e.start) s.text.utf8ByteSize

/-- The place up to which text stays as it is after an edit: that of the next edit, or the end. -/
def keptUntil (s : Splice) (e : Edit) : Option Edit → Nat
  | none => s.text.utf8ByteSize
  | some next =>
      match e.stop? with
      | some stop => if next.replaces then max (stop + 1) next.start else next.start
      | none => next.start

/-- The text from the first of some edits on. -/
def renderFrom (s : Splice) (placement : Option Placement) : List Edit → Outcome (List Char)
  | [] => .ok []
  | e :: rest =>
      if rest.head?.any (isSuperseded e) then renderFrom s placement rest
      else do
        let kept ← s.slice (s.keptFrom e) (s.keptUntil e rest.head?) e
        let tail ← renderFrom s placement rest
        pure ((e.render placement).toList ++ kept ++ tail)

/-- The edited text at a placement, or that of the statement without one. -/
def render (s : Splice) (placement : Option Placement) : Outcome String :=
  match s.edits with
  | [] => .ok s.text
  | first :: _ => do
      let head ← s.slice 0 first.start first
      let tail ← s.renderFrom placement s.edits
      pure (String.ofList (head ++ tail))

@[simp] theorem render_nil (text : String) (placement : Option Placement) :
    (Splice.mk text []).render placement = .ok text := rfl

theorem ofEdits_perm {text : String} {edits : List Edit} {s : Splice}
    (h : ofEdits text edits = .ok s) : s.edits.Perm edits := by
  unfold ofEdits at h
  cases hc : checkFrom text none (arrange edits) with
  | error f => simp [hc, bind, Except.bind] at h
  | ok u =>
      simp only [hc, bind, Except.bind, pure, Except.pure, Except.ok.injEq] at h
      subst h
      exact List.mergeSort_perm _ _

end Splice

end ShardedSql
