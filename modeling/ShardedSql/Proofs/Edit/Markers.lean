/-
**Reading an edited text from left to right.**

Whatever is known of the places of a text and of the edits that are made to it can be read off the
edited text in the same order as its bytes.  The markers of a statement are read like that: those
that the statement has itself stand at their places, and an edit may put further ones there.

Main definitions:

* `ShardedSql.Splice.readOff` — **what is read off an edited text**, place by place;
* `ShardedSql.Mark` — a marker of a physical statement;
* `ShardedSql.Edit.marks`, `ShardedSql.Expr.marksAt` — the markers that an edit puts into a text, and
  those of the statement at a place.

Main results:

* `ShardedSql.Splice.spliced_eq_readOff` — the bytes of an edited text are read off in that way;
* `ShardedSql.Splice.utf8_of_edited` — edits in order give the text that consists of them;
* `ShardedSql.Splice.readOff_pair` — **what is read off where one edit is put behind another**;
* `ShardedSql.Expr.flatMap_marksAt` — expressions that stand one after another are read in order.
-/

import ShardedSql.Proofs.Edit.Splice

set_option relaxedAutoImplicit false
set_option autoImplicit false

namespace ShardedSql

open Text

namespace Splice

variable {α : Type} {placement : Option Placement} {ofEdit : Edit → List α} {ofPlace : Nat → List α}

/-! ### Place by place -/

/-- What is read off an edited text: at each place first what the edits put there that begin there,
and then what the text has there, unless an edit replaces it. -/
def readOff (ofEdit : Edit → List α) (ofPlace : Nat → List α) (edits : List Edit) (length : Nat) :
    List α :=
  (List.range (length + 1)).flatMap fun i =>
    ((edits.filter fun e => e.start = i).flatMap ofEdit) ++
      if edits.any fun e => e.covers i then [] else ofPlace i

/-- The bytes of an edited text are read off in the same way. -/
theorem spliced_eq_readOff (edits : List Edit) (bytes : List UInt8) :
    spliced placement edits bytes =
      readOff (fun e => utf8 (e.render placement)) (fun i => bytes[i]?.toList) edits
        bytes.length := rfl

/-- Edits that are all made in their order give the text that is read off place by place. -/
theorem utf8_of_edited {text out : String} {edits : List Edit} (hdistinct : Distinct edits)
    (hordered : edits.Pairwise fun a b => (a.order b).isLE = true) (hmade : made edits = edits)
    (h : edited text edits placement = .ok out) :
    utf8 out = spliced placement edits (utf8 text) := by
  have harranged : arrange edits = edits := List.mergeSort_of_pairwise hordered
  obtain ⟨hcheck, hrender⟩ := edited_eq_ok.1 h
  rw [harranged] at hcheck hrender
  obtain ⟨hin, -⟩ := neighbours_of_checkFrom hcheck
  obtain ⟨hapart, -⟩ := (exists_render_iff hdistinct hcheck).1 ⟨out, hrender⟩
  rw [hmade] at hapart
  rw [utf8_render hdistinct hcheck hrender, hmade,
    woven_eq_flatMap hapart (fun e he => by rw [length_utf8]; exact hin e he)
      (fun e _ => Nat.zero_le e.start) (Nat.zero_le _), spliced, List.range_eq_range', Nat.sub_zero]

/-- What is read off where a replacement that has nothing stands before an insertion, and nothing
is replaced that the text has. -/
theorem readOff_pair {e k : Edit} {length : Nat} (hnone : ofEdit e = []) (hinsert : k.stop? = none)
    (hcovered : ∀ i, e.covers i = true → ofPlace i = []) (hlength : k.start ≤ length) :
    readOff ofEdit ofPlace [e, k] length =
      (List.range k.start).flatMap ofPlace ++ ofEdit k ++
        (List.range' k.start (length + 1 - k.start)).flatMap ofPlace := by
  have hplace (i : Nat) : ((([e, k].filter fun x => x.start = i).flatMap ofEdit) ++
      if [e, k].any fun x => x.covers i then [] else ofPlace i) =
        (if k.start = i then ofEdit k else []) ++ ofPlace i := by
    have hedits : (([e, k].filter fun x => x.start = i).flatMap ofEdit) =
        if k.start = i then ofEdit k else [] := by
      by_cases he : e.start = i <;> by_cases hk : k.start = i <;> simp [he, hk, hnone]
    have hfree : k.covers i = false := by simp [Edit.covers, hinsert]
    rw [hedits, List.any_cons, List.any_cons, List.any_nil, hfree, Bool.or_false, Bool.or_false]
    cases hcov : e.covers i with
    | true => rw [if_pos rfl, hcovered i hcov]
    | false => rw [if_neg Bool.false_ne_true]
  -- the insertion comes behind what stands before its start, and before what stands there
  have hbefore : (List.range' 0 k.start).flatMap
      (fun i => (if k.start = i then ofEdit k else []) ++ ofPlace i) =
        (List.range' 0 k.start).flatMap ofPlace := by
    refine List.flatMap_congr fun i hi => ?_
    have hlt := (List.mem_range'_1.1 hi).2
    rw [if_neg (by omega), List.nil_append]
  have hbehind : (List.range' (k.start + 1) (length - k.start)).flatMap
      (fun i => (if k.start = i then ofEdit k else []) ++ ofPlace i) =
        (List.range' (k.start + 1) (length - k.start)).flatMap ofPlace := by
    refine List.flatMap_congr fun i hi => ?_
    have hle := (List.mem_range'_1.1 hi).1
    rw [if_neg (by omega), List.nil_append]
  have hsplit : List.range (length + 1) =
      List.range' 0 k.start ++ List.range' k.start (length + 1 - k.start) := by
    have h := Lists.range'_split (Nat.zero_le k.start) (Nat.le_succ_of_le hlength)
    rwa [Nat.sub_zero, Nat.sub_zero, ← List.range_eq_range'] at h
  have hcount : length + 1 - k.start = (length - k.start) + 1 := by omega
  rw [readOff, List.flatMap_congr fun i _ => hplace i, hsplit, List.flatMap_append, hbefore, hcount,
    List.range'_succ, List.flatMap_cons, List.flatMap_cons, if_pos rfl, hbehind,
    List.range_eq_range']
  simp only [List.append_assoc]

end Splice

/-! ### Markers -/

/-- A marker of a physical statement: one that the statement has itself, with its number, or that
of a generated key. -/
inductive Mark where
  | own (index : Nat)
  | key
  deriving Repr, DecidableEq

/-- The value that a marker stands for, where a key was generated. -/
def Mark.value? (parameters : List Value) (key : Value) : Mark → Option Value
  | .own index => parameters[index]?
  | .key => some key

/-- The markers that an edit puts into an insertion with `SET`. -/
def Edit.marks : Edit → List Mark
  | .keyAssignment _ _ .marker => [.key]
  | _ => []

namespace Expr

/-- The marker that an expression is. -/
def mark? (e : Expr) : Option Mark := e.marker?.map Mark.own

/-- The markers among some expressions that stand at a place. -/
def marksAt (exprs : List Expr) (place : Nat) : List Mark :=
  (exprs.filter fun e => e.start = place).filterMap mark?

theorem marksAt_append (exprs more : List Expr) (place : Nat) :
    marksAt (exprs ++ more) place = marksAt exprs place ++ marksAt more place := by
  rw [marksAt, List.filter_append, List.filterMap_append]
  rfl

theorem marksAt_eq_nil {exprs : List Expr} {place : Nat} (h : ∀ e ∈ exprs, e.start ≠ place) :
    marksAt exprs place = [] := by
  rw [marksAt, List.filter_eq_nil_iff.2 fun e he => by simpa using h e he, List.filterMap_nil]

/-- **Expressions that stand one after another are read in order.** -/
theorem flatMap_marksAt {exprs : List Expr} (start n : Nat)
    (hascending : exprs.Pairwise fun a b => a.start < b.start)
    (hwithin : ∀ e ∈ exprs, start ≤ e.start ∧ e.start < start + n) :
    (List.range' start n).flatMap (marksAt exprs) = exprs.filterMap mark? := by
  induction exprs generalizing start n with
  | nil => exact List.flatMap_eq_nil_iff.2 fun i _ => rfl
  | cons e rest ih =>
      obtain ⟨hlater, hrest⟩ := List.pairwise_cons.1 hascending
      obtain ⟨hle, hlt⟩ := hwithin e (List.mem_cons_self ..)
      have hsingle (place : Nat) : marksAt (e :: rest) place =
          (if e.start = place then e.mark?.toList else []) ++ marksAt rest place := by
        rw [← List.singleton_append, marksAt_append, marksAt, List.filter_singleton]
        by_cases hplace : e.start = place
        · simp only [hplace, decide_true, cond_true, if_true]
          cases hmark : e.mark? <;> simp [hmark]
        · simp [hplace]
      -- up to the first expression nothing is read, and behind it only the others are
      have hbefore : (List.range' start (e.start - start)).flatMap (marksAt (e :: rest)) = [] := by
        refine List.flatMap_eq_nil_iff.2 fun i hi => marksAt_eq_nil fun x hx => ?_
        have hi := (List.mem_range'_1.1 hi).2
        rcases List.mem_cons.1 hx with rfl | hx
        · omega
        · have := hlater x hx
          omega
      have hbehind : (List.range' (e.start + 1) (start + n - (e.start + 1))).flatMap
          (marksAt (e :: rest)) = rest.filterMap mark? := by
        rw [← ih (e.start + 1) (start + n - (e.start + 1)) hrest fun x hx => by
          have := hlater x hx
          have := (hwithin x (List.mem_cons_of_mem _ hx)).2
          omega]
        refine List.flatMap_congr fun i hi => ?_
        have hi := (List.mem_range'_1.1 hi).1
        rw [hsingle, if_neg (by omega), List.nil_append]
      have hself : marksAt (e :: rest) e.start = e.mark?.toList := by
        rw [hsingle, if_pos rfl, marksAt_eq_nil fun x hx => (hlater x hx).ne', List.append_nil]
      have hn : n = start + n - start := by omega
      have hcount : start + n - e.start = (start + n - (e.start + 1)) + 1 := by omega
      rw [hn, Lists.range'_split hle (by omega), List.flatMap_append, hbefore, List.nil_append,
        hcount, List.range'_succ, List.flatMap_cons, hself, hbehind]
      cases hmark : e.mark? <;> simp [hmark]

end Expr

end ShardedSql
