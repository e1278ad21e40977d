/-
**What an edited text consists of.**

The edited text is given byte by byte.  At each place of the text stand first the texts of the
edits that begin there, in the order in which edits are made, and then the byte of the text at
this place, unless an edit replaces it.  Edits that fit the text give this text and no other, and
edits that do not fit give a fault.

The proof goes through a walk over the edits that are made, which copies what lies before the next
one and leaves out what it replaces.  `renderFrom` is such a walk although it looks one edit ahead,
because the check of the edits rules out the one case in which that edit begins too early.

Main definitions:

* `ShardedSql.Splice.made` — the edits that are made, of those in order;
* `ShardedSql.Splice.woven` — the text as a walk over the edits;
* `ShardedSql.Splice.spliced` — **the edited text, place by place**;
* `ShardedSql.Splice.Fits` — the edits are inside the text, apart, and split no character.

Main results:

* `ShardedSql.Splice.woven_eq_flatMap` — the walk puts at each place what belongs there;
* `ShardedSql.Splice.utf8_render` — what is rendered is the walk;
* `ShardedSql.Splice.edited_spec` — **a text is edited exactly when its edits fit, and then it is
  edited where they say and nowhere else**;
* `ShardedSql.Splice.edited_of_perm` — the order in which edits are given does not matter.
-/

import Mathlib.Data.List.Chain
import ShardedSql.Edit.Splice
import ShardedSql.Proofs.Outcome
import ShardedSql.Proofs.Sorting.Stable
import ShardedSql.Proofs.Text.Bytes

set_option relaxedAutoImplicit false
set_option autoImplicit false

namespace ShardedSql

open Text

/-! ### What an edit replaces -/

namespace Edit

/-- The place behind what an edit replaces, or its start when it replaces nothing. -/
def behind (e : Edit) : Nat :=
  match e.stop? with
  | some stop => stop + 1
  | none => e.start

/-- The edit replaces the byte at a place. -/
def covers (e : Edit) (i : Nat) : Bool := e.stop?.any fun stop => e.start ≤ i && i ≤ stop

@[simp] theorem behind_of_stop {e : Edit} {stop : Nat} (h : e.stop? = some stop) :
    e.behind = stop + 1 := by
  simp [behind, h]

@[simp] theorem behind_of_insert {e : Edit} (h : e.stop? = none) : e.behind = e.start := by
  simp [behind, h]

theorem covers_iff (e : Edit) (i : Nat) : e.covers i = true ↔ e.start ≤ i ∧ i < e.behind := by
  cases h : e.stop? with
  | none =>
      simp only [covers, h, behind_of_insert, Option.any_none, Bool.false_eq_true, false_iff]
      omega
  | some stop =>
      simp only [covers, h, behind_of_stop h, Option.any_some, Bool.and_eq_true, decide_eq_true_eq]
      omega

theorem not_covers_of_lt {e : Edit} {i : Nat} (h : i < e.start) : e.covers i = false := by
  rw [Bool.eq_false_iff, ne_eq, covers_iff]
  omega

theorem not_covers_of_le {e : Edit} {i : Nat} (h : e.behind ≤ i) : e.covers i = false := by
  rw [Bool.eq_false_iff, ne_eq, covers_iff]
  omega

/-! ### The order of edits -/

theorem stopOrder_eq_compare (a b : Option Nat) : stopOrder a b = compare a b := by
  cases a <;> cases b <;> rfl

/-- Edits are made in an order by start, kind and stop. -/
instance : Std.TransCmp order := by
  have horder : order = compareLex (compareLex (compareOn start) (compareOn rank))
      (compareOn stop?) := by
    funext a b
    simp only [order, stopOrder_eq_compare]
    rfl
  rw [horder]
  infer_instance

end Edit

namespace Splice

/-- An edit inside a text does not stop before its start, and not behind the end of the text. -/
theorem isOutside_eq_false_iff (length : Nat) (e : Edit) :
    isOutside length e = false ↔ (∀ stop ∈ e.stop?, e.start ≤ stop) ∧ e.behind ≤ length := by
  cases h : e.stop? with
  | none => simp [isOutside, h]
  | some stop =>
      rw [Edit.behind_of_stop h]
      simp only [isOutside, h, Bool.or_eq_false_iff, decide_eq_false_iff_not, Option.mem_def,
        Option.some.injEq, forall_eq']
      omega

theorem start_le_behind {length : Nat} {e : Edit} (h : isOutside length e = false) :
    e.start ≤ e.behind := by
  obtain ⟨hstop, -⟩ := (isOutside_eq_false_iff length e).1 h
  cases hs : e.stop? with
  | none => simp [hs]
  | some stop =>
      have hle := hstop stop (by simp [hs])
      rw [Edit.behind_of_stop hs]
      omega

/-! ### Edits that are made -/

/-- The edits that are made, of edits in order: a replacement directly before another one with the
same start is not. -/
def made : List Edit → List Edit
  | [] => []
  | e :: rest =>
      if rest.head?.any fun next => e.replaces && next.replaces && e.start = next.start then
        made rest
      else e :: made rest

/-- No two replacements have the same start and the same stop. -/
abbrev Distinct (edits : List Edit) : Prop :=
  edits.Pairwise fun a b => a.replaces → b.replaces → ¬ (a.start = b.start ∧ a.stop? = b.stop?)

/-- Among distinct replacements, those that are not made are those that are superseded. -/
theorem made_cons {e : Edit} {rest : List Edit} (h : Distinct (e :: rest)) :
    made (e :: rest) = if rest.head?.any (isSuperseded e) then made rest else e :: made rest := by
  cases rest with
  | nil => rfl
  | cons next rest =>
      have hne := List.rel_of_pairwise_cons h (List.mem_cons_self (a := next) (l := rest))
      have hsame : (e.replaces && next.replaces && decide (e.start = next.start)) =
          isSuperseded e next := by
        rw [Bool.eq_iff_iff]
        simp only [isSuperseded, Bool.and_eq_true, decide_eq_true_eq, ne_eq]
        exact ⟨fun ⟨⟨he, hn⟩, hs⟩ => ⟨⟨⟨he, hn⟩, hs⟩, fun ht => hne he hn ⟨hs, ht⟩⟩, fun hs => hs.1⟩
      rw [made, List.head?_cons, Option.any_some, Option.any_some, hsame]

/-- The first edit that is made starts where the first edit starts. -/
theorem made_eq_cons (e : Edit) (rest : List Edit) :
    ∃ k ks, made (e :: rest) = k :: ks ∧ k.start = e.start := by
  induction rest generalizing e with
  | nil => exact ⟨e, [], rfl, rfl⟩
  | cons next rest ih =>
      by_cases hskip : (e.replaces && next.replaces && decide (e.start = next.start)) = true
      · obtain ⟨k, ks, hmade, hstart⟩ := ih next
        refine ⟨k, ks, ?_, ?_⟩
        · rw [made, List.head?_cons, Option.any_some, if_pos hskip, hmade]
        · simp only [Bool.and_eq_true, decide_eq_true_eq] at hskip
          rw [hstart, hskip.2]
      · refine ⟨e, made (next :: rest), ?_, rfl⟩
        rw [made, List.head?_cons, Option.any_some, if_neg hskip]

/-- Edits that are made are among those given. -/
theorem made_sublist (edits : List Edit) : (made edits).Sublist edits := by
  induction edits with
  | nil => exact List.Sublist.refl _
  | cons e rest ih =>
      rw [made]
      split
      · exact ih.cons e
      · exact ih.cons_cons e

/-! ### The edited text -/

/-- What stands at a place of the edited text: the texts of the edits that begin there, and the
byte of the text unless an edit replaces it. -/
def atPlace (placement : Option Placement) (edits : List Edit) (bytes : List UInt8) (i : Nat) :
    List UInt8 :=
  ((edits.filter fun e => e.start = i).flatMap fun e => utf8 (e.render placement)) ++
    if edits.any fun e => e.covers i then [] else bytes[i]?.toList

/-- The edited text, place by place.  Text can also be put behind the last byte. -/
def spliced (placement : Option Placement) (edits : List Edit) (bytes : List UInt8) :
    List UInt8 :=
  (List.range (bytes.length + 1)).flatMap (atPlace placement edits bytes)

/-- The text from a place on: up to the next edit it stays as it is, then comes the text of the
edit, and what the edit replaces is left out. -/
def woven (placement : Option Placement) (bytes : List UInt8) (i : Nat) :
    List Edit → List UInt8
  | [] => bytes.drop i
  | e :: rest =>
      (bytes.drop i).take (e.start - i) ++ utf8 (e.render placement) ++
        woven placement bytes e.behind rest

/-- The edits fit the text: all are inside it, and those that are made come one after another and
begin and end between characters. -/
structure Fits (text : String) (edits : List Edit) : Prop where
  inside : ∀ e ∈ edits, isOutside text.utf8ByteSize e = false
  apart : (made (arrange edits)).IsChain fun a b => a.behind ≤ b.start
  between : ∀ e ∈ made (arrange edits),
    IsBoundary e.start text.toList ∧ IsBoundary e.behind text.toList

/-- The text of a statement with edits, at a placement. -/
def edited (text : String) (edits : List Edit) (placement : Option Placement) : Outcome String := do
  let s ← ofEdits text edits
  s.render placement

/-! ### The walk, place by place -/

variable {placement : Option Placement} {bytes : List UInt8}

@[simp] theorem atPlace_nil (i : Nat) : atPlace placement [] bytes i = bytes[i]?.toList := by
  simp [atPlace]

/-- Before the first edit the text stays as it is. -/
theorem atPlace_of_lt {edits : List Edit} {i : Nat} (h : ∀ e ∈ edits, i < e.start) :
    atPlace placement edits bytes i = bytes[i]?.toList := by
  have hnone : (edits.filter fun e => e.start = i) = [] := by
    rw [List.filter_eq_nil_iff]
    intro e he
    have hlt := h e he
    simp only [decide_eq_true_eq]
    omega
  have hfree : (edits.any fun e => e.covers i) = false := by
    rw [List.any_eq_false]
    intro e he
    rw [Edit.not_covers_of_lt (h e he)]
    exact Bool.false_ne_true
  rw [atPlace, hnone, hfree]
  rfl

/-- An edit has no effect at a place behind it at which it does not begin. -/
theorem atPlace_cons_of_le {e : Edit} {rest : List Edit} {i : Nat} (hlt : e.start < i)
    (hle : e.behind ≤ i) :
    atPlace placement (e :: rest) bytes i = atPlace placement rest bytes i := by
  rw [atPlace, List.filter_cons_of_neg (by simp only [decide_eq_true_eq]; omega), List.any_cons,
    Edit.not_covers_of_le hle, Bool.false_or]
  rfl

/-- Where an edit puts text, this text comes first. -/
theorem atPlace_start_of_insert {e : Edit} {rest : List Edit} (h : e.stop? = none) :
    atPlace placement (e :: rest) bytes e.start =
      utf8 (e.render placement) ++ atPlace placement rest bytes e.start := by
  rw [atPlace, List.filter_cons_of_pos (by simp), List.any_cons,
    Edit.not_covers_of_le (by simp [h]), Bool.false_or, List.flatMap_cons, List.append_assoc]
  rfl

/-- Where an edit begins to replace text, only its own text stands. -/
theorem atPlace_start_of_stop {e : Edit} {rest : List Edit} {stop : Nat}
    (h : e.stop? = some stop) (hle : e.start ≤ stop) (hrest : ∀ x ∈ rest, e.behind ≤ x.start) :
    atPlace placement (e :: rest) bytes e.start = utf8 (e.render placement) := by
  have hcovers : e.covers e.start = true := by
    rw [Edit.covers_iff, Edit.behind_of_stop h]
    omega
  have hnone : (rest.filter fun x => x.start = e.start) = [] := by
    rw [List.filter_eq_nil_iff]
    intro x hx
    have hxs := hrest x hx
    rw [Edit.behind_of_stop h] at hxs
    simp only [decide_eq_true_eq]
    omega
  rw [atPlace, List.filter_cons_of_pos (by simp), hnone, List.any_cons, hcovers]
  simp

/-- Within what an edit replaces nothing stands. -/
theorem atPlace_within {e : Edit} {rest : List Edit} {i : Nat} (hlt : e.start < i)
    (hbehind : i < e.behind) (hrest : ∀ x ∈ rest, e.behind ≤ x.start) :
    atPlace placement (e :: rest) bytes i = [] := by
  have hcovers : e.covers i = true := (Edit.covers_iff e i).2 ⟨by omega, hbehind⟩
  have hnone : ((e :: rest).filter fun x => x.start = i) = [] := by
    rw [List.filter_eq_nil_iff]
    intro x hx
    rw [decide_eq_true_eq]
    rcases List.mem_cons.1 hx with rfl | hx
    · omega
    · have hxs := hrest x hx
      omega
  rw [atPlace, hnone, List.any_cons, hcovers]
  rfl

/-- From the start of an edit on stands its text, and then what stands behind it. -/
theorem flatMap_atPlace_cons {e : Edit} {rest : List Edit}
    (hin : isOutside bytes.length e = false) (hrest : ∀ x ∈ rest, e.behind ≤ x.start) :
    (List.range' e.start (bytes.length + 1 - e.start)).flatMap
        (atPlace placement (e :: rest) bytes) =
      utf8 (e.render placement) ++
        (List.range' e.behind (bytes.length + 1 - e.behind)).flatMap
          (atPlace placement rest bytes) := by
  obtain ⟨hstop, hlen⟩ := (isOutside_eq_false_iff _ e).1 hin
  -- behind the edit only the others count
  have hlater (i n : Nat) (hlt : e.start < i) (hle : e.behind ≤ i) :
      (List.range' i n).flatMap (atPlace placement (e :: rest) bytes) =
        (List.range' i n).flatMap (atPlace placement rest bytes) := by
    refine List.flatMap_congr fun j hj => ?_
    have hij := (List.mem_range'_1.1 hj).1
    exact atPlace_cons_of_le (by omega) (by omega)
  cases h : e.stop? with
  | none =>
      -- the byte at the start of an insertion stays, behind the text that is inserted
      rw [Edit.behind_of_insert h] at hlen ⊢
      have hcount : bytes.length + 1 - e.start = (bytes.length - e.start) + 1 := by omega
      rw [hcount, List.range'_succ, List.flatMap_cons, List.flatMap_cons,
        atPlace_start_of_insert h, hlater _ _ (by omega) (by rw [Edit.behind_of_insert h]; omega),
        List.append_assoc]
  | some stop =>
      have hle : e.start ≤ stop := hstop stop (by simp [h])
      have hbehind := Edit.behind_of_stop h
      have hwithin : (List.range' (e.start + 1) (stop + 1 - (e.start + 1))).flatMap
          (atPlace placement (e :: rest) bytes) = [] := by
        rw [List.flatMap_eq_nil_iff]
        intro j hj
        have hj := List.mem_range'_1.1 hj
        exact atPlace_within (by omega) (by omega) hrest
      have hcount : bytes.length + 1 - e.start = (bytes.length + 1 - (e.start + 1)) + 1 := by omega
      rw [hcount, List.range'_succ, List.flatMap_cons, atPlace_start_of_stop h hle hrest,
        Lists.range'_split (j := stop + 1) (by omega) (by omega), List.flatMap_append, hwithin,
        List.nil_append, hlater _ _ (by omega) (by omega), hbehind]

/-- Edits that come one after another all come behind the first of them. -/
theorem behind_le_start {e : Edit} {rest : List Edit} (hapart : (e :: rest).IsChain
    fun a b => a.behind ≤ b.start) (hle : ∀ x ∈ rest, x.start ≤ x.behind) :
    ∀ x ∈ rest, e.behind ≤ x.start := by
  induction rest generalizing e with
  | nil => simp
  | cons next rest ih =>
      obtain ⟨hnext, hapart⟩ := List.isChain_cons_cons.1 hapart
      intro x hx
      rcases List.mem_cons.1 hx with rfl | hx
      · exact hnext
      · have hself := hle next (List.mem_cons_self ..)
        have hlater := ih hapart (fun y hy => hle y (List.mem_cons_of_mem _ hy)) x hx
        omega

/-- **The walk over edits that come one after another puts at each place what belongs there.** -/
theorem woven_eq_flatMap {edits : List Edit} {i : Nat}
    (hapart : edits.IsChain fun a b => a.behind ≤ b.start)
    (hin : ∀ e ∈ edits, isOutside bytes.length e = false)
    (hstart : ∀ e ∈ edits.head?, i ≤ e.start) (hi : i ≤ bytes.length) :
    woven placement bytes i edits =
      (List.range' i (bytes.length + 1 - i)).flatMap (atPlace placement edits bytes) := by
  induction edits generalizing i with
  | nil =>
      have hcopy := Lists.flatMap_getElem? bytes i (bytes.length + 1 - i)
      rw [List.take_of_length_le (by rw [List.length_drop]; omega)] at hcopy
      rw [woven, ← hcopy]
      exact List.flatMap_congr fun j _ => (atPlace_nil j).symm
  | cons e rest ih =>
      have he := hin e (List.mem_cons_self ..)
      have hrest := behind_le_start hapart fun x hx =>
        start_le_behind (hin x (List.mem_cons_of_mem _ hx))
      have hie : i ≤ e.start := hstart e rfl
      -- the places are those before the edit and those from its start on
      have hself := start_le_behind he
      obtain ⟨-, hlen⟩ := (isOutside_eq_false_iff _ e).1 he
      have hbefore : (List.range' i (e.start - i)).flatMap
          (atPlace placement (e :: rest) bytes) = (bytes.drop i).take (e.start - i) := by
        rw [← Lists.flatMap_getElem?]
        refine List.flatMap_congr fun j hj => atPlace_of_lt fun x hx => ?_
        have hj := List.mem_range'_1.1 hj
        rcases List.mem_cons.1 hx with rfl | hx
        · omega
        · have hxs := hrest x hx
          omega
      have htail := ih hapart.tail (fun x hx => hin x (List.mem_cons_of_mem _ hx))
        (fun x hx => hrest x (List.mem_of_mem_head? hx)) hlen
      rw [woven, Lists.range'_split (j := e.start) hie (by omega), List.flatMap_append, hbefore,
        flatMap_atPlace_cons he hrest, htail, List.append_assoc]

/-! ### Checked edits -/

@[simp] theorem kind_fault (message text : String) (e : Edit) :
    (fault message text e).kind = .editing := by
  unfold fault
  cases e.stop? <;> rfl

/-- The check looks at each edit, and at each replacement together with the last one before it. -/
theorem checkFrom_cons_eq_ok {text : String} {last : Option (Nat × Nat)} {e : Edit}
    {rest : List Edit} :
    checkFrom text last (e :: rest) = .ok () ↔
      isOutside text.utf8ByteSize e = false ∧
        (e.replaces → ∀ p ∈ last, e.start = p.1 ∨ p.2 < e.start) ∧
        checkFrom text (e.stop?.elim last fun stop => some (e.start, stop)) rest = .ok () := by
  cases hout : isOutside text.utf8ByteSize e with
  | true => simp [checkFrom, hout]
  | false =>
      cases hs : e.stop? with
      | none => simp [checkFrom, hout, hs, Edit.replaces]
      | some stop =>
          cases last with
          | none => simp [checkFrom, hout, hs]
          | some p =>
              obtain ⟨lastStart, lastStop⟩ := p
              by_cases hover : e.start ≠ lastStart ∧ e.start ≤ lastStop
              · simp [checkFrom, hout, hs, hover, Edit.replaces]
              · have hok : e.start = lastStart ∨ lastStop < e.start := by omega
                simp [checkFrom, hout, hs, if_neg hover, hok]

theorem kind_of_checkFrom {text : String} {last : Option (Nat × Nat)} {edits : List Edit}
    {f : Fault} (h : checkFrom text last edits = .error f) : f.kind = .editing := by
  induction edits generalizing last with
  | nil => cases h
  | cons e rest ih =>
      cases hout : isOutside text.utf8ByteSize e with
      | true =>
          simp only [checkFrom, hout, if_true, Except.error.injEq] at h
          rw [← h, kind_fault]
      | false =>
          cases hs : e.stop? with
          | none =>
              simp only [checkFrom, hout, hs, if_neg Bool.false_ne_true] at h
              exact ih h
          | some stop =>
              cases last with
              | none =>
                  simp only [checkFrom, hout, hs, if_neg Bool.false_ne_true] at h
                  exact ih h
              | some p =>
                  simp only [checkFrom, hout, hs, if_neg Bool.false_ne_true] at h
                  split at h
                  · cases h
                    simp
                  · exact ih h

/-- A replacement directly behind another one starts with it or behind it. -/
abbrev Neighbours (edits : List Edit) : Prop :=
  edits.IsChain fun a b => a.replaces → b.replaces → a.start = b.start ∨ a.behind ≤ b.start

/-- Checked edits are inside the text, and no two neighbours overlap. -/
theorem neighbours_of_checkFrom {text : String} {last : Option (Nat × Nat)} {edits : List Edit}
    (h : checkFrom text last edits = .ok ()) :
    (∀ e ∈ edits, isOutside text.utf8ByteSize e = false) ∧ Neighbours edits := by
  induction edits generalizing last with
  | nil => exact ⟨by simp, List.isChain_nil⟩
  | cons e rest ih =>
      obtain ⟨hin, -, hrest⟩ := checkFrom_cons_eq_ok.1 h
      obtain ⟨hins, hchain⟩ := ih hrest
      refine ⟨List.forall_mem_cons.2 ⟨hin, hins⟩, ?_⟩
      cases rest with
      | nil => exact List.isChain_singleton e
      | cons next rest =>
          refine List.isChain_cons_cons.2 ⟨fun he hnext => ?_, hchain⟩
          obtain ⟨stop, hstop⟩ := Option.isSome_iff_exists.1 he
          obtain ⟨-, hlast, -⟩ := checkFrom_cons_eq_ok.1 hrest
          have hpair := hlast hnext (e.start, stop) (by simp [hstop])
          rw [Edit.behind_of_stop hstop]
          omega

/-- Edits inside the text pass the check when those that are made come one after another, behind
the replacement that was checked last or with its start. -/
theorem checkFrom_of_apart {text : String} {last : Option (Nat × Nat)} {edits : List Edit}
    (hin : ∀ e ∈ edits, isOutside text.utf8ByteSize e = false)
    (hapart : (made edits).IsChain fun a b => a.behind ≤ b.start)
    (hlast : ∀ p ∈ last, ∀ e ∈ edits.head?, (e.replaces ∧ e.start = p.1) ∨ p.2 < e.start) :
    checkFrom text last edits = .ok () := by
  induction edits generalizing last with
  | nil => rfl
  | cons e rest ih =>
      have he := hin e (List.mem_cons_self ..)
      have hins : ∀ x ∈ rest, isOutside text.utf8ByteSize x = false := fun x hx =>
        hin x (List.mem_cons_of_mem _ hx)
      refine checkFrom_cons_eq_ok.2 ⟨he, fun _ p hp => (hlast p hp e rfl).imp_left And.right, ?_⟩
      cases rest with
      | nil => rfl
      | cons next rest =>
          by_cases hskip : (e.replaces && next.replaces && decide (e.start = next.start)) = true
          · -- the edit is not made, and the next one starts with it
            rw [made, List.head?_cons, Option.any_some, if_pos hskip] at hapart
            simp only [Bool.and_eq_true, decide_eq_true_eq] at hskip
            obtain ⟨⟨hrep, hnext⟩, hsame⟩ := hskip
            obtain ⟨stop, hstop⟩ := Option.isSome_iff_exists.1 hrep
            refine ih hins hapart fun p hp x hx => ?_
            rw [hstop, Option.elim_some, Option.mem_some] at hp
            rw [List.head?_cons, Option.mem_some] at hx
            subst hp hx
            exact .inl ⟨hnext, hsame.symm⟩
          · -- the edit is made, and the next one that is made starts where the next one does
            obtain ⟨k, ks, hmade, hstart⟩ := made_eq_cons next rest
            rw [made, List.head?_cons, Option.any_some, if_neg hskip, hmade] at hapart
            obtain ⟨hbehind, hks⟩ := List.isChain_cons_cons.1 hapart
            refine ih hins (hmade ▸ hks) fun p hp x hx => ?_
            rw [List.head?_cons, Option.mem_some] at hx
            subst hx
            cases hstop : e.stop? with
            | none =>
                rw [hstop, Option.elim_none] at hp
                -- an insertion is not checked, so that the last replacement before it counts
                rw [Edit.behind_of_insert hstop] at hbehind
                have hnot : ¬ e.replaces := by simp [Edit.replaces, hstop]
                refine .inr ?_
                rcases hlast p hp e rfl with ⟨hrep, -⟩ | hlt
                · exact absurd hrep hnot
                · omega
            | some stop =>
                rw [hstop, Option.elim_some, Option.mem_some] at hp
                rw [Edit.behind_of_stop hstop] at hbehind
                subst hp
                exact .inr (by simp only; omega)

/-! ### Rendering is a walk -/

variable {s : Splice}

theorem slice_eq_ok {start stop : Nat} {e : Edit} {part : List Char} :
    s.slice start stop e = .ok part ↔ slice? start stop s.text.toList = some part := by
  unfold slice
  cases slice? start stop s.text.toList <;> simp

theorem kind_of_slice {start stop : Nat} {e : Edit} {f : Fault}
    (h : s.slice start stop e = .error f) : f.kind = .editing := by
  unfold slice at h
  split at h
  · cases h
  · cases h
    exact kind_fault ..

theorem kind_of_renderFrom {edits : List Edit} {f : Fault}
    (h : s.renderFrom placement edits = .error f) : f.kind = .editing := by
  induction edits with
  | nil => cases h
  | cons e rest ih =>
      rw [renderFrom] at h
      split at h
      · exact ih h
      · rcases Outcome.bind_eq_error.1 h with h | ⟨kept, -, h⟩
        · exact kind_of_slice h
        · rcases Outcome.bind_eq_error.1 h with h | ⟨tail, -, h⟩
          · exact ih h
          · cases h

theorem kind_of_render {f : Fault} (h : s.render placement = .error f) : f.kind = .editing := by
  unfold render at h
  split at h
  · cases h
  · rcases Outcome.bind_eq_error.1 h with h | ⟨head, -, h⟩
    · exact kind_of_slice h
    · rcases Outcome.bind_eq_error.1 h with h | ⟨tail, -, h⟩
      · exact kind_of_renderFrom h
      · cases h

/-- The text from the first of some edits on, when all of them are made and none overlap. -/
def walk (s : Splice) (placement : Option Placement) : List Edit → Outcome (List Char)
  | [] => .ok []
  | e :: rest => do
      let kept ← s.slice e.behind ((rest.head?.map (·.start)).getD s.text.utf8ByteSize) e
      let tail ← walk s placement rest
      pure ((e.render placement).toList ++ kept ++ tail)

theorem keptFrom_eq {e : Edit} (hin : isOutside s.text.utf8ByteSize e = false) :
    s.keptFrom e = e.behind := by
  obtain ⟨-, hlen⟩ := (isOutside_eq_false_iff _ e).1 hin
  exact Nat.min_eq_left hlen

/-- Text is kept up to the start of the next edit, as that does not lie in what was replaced. -/
theorem keptUntil_some_eq {e next : Edit}
    (h : e.replaces → next.replaces → e.behind ≤ next.start) :
    s.keptUntil e (some next) = next.start := by
  cases hs : e.stop? with
  | none => simp [keptUntil, hs]
  | some stop =>
      by_cases hnext : next.replaces = true
      · have hle := h (by simp [Edit.replaces, hs]) hnext
        rw [Edit.behind_of_stop hs] at hle
        simp [keptUntil, hs, hnext, hle]
      · simp [keptUntil, hs, hnext]

/-- Rendering checked edits walks over those of them that are made. -/
theorem renderFrom_eq_walk (s : Splice) (placement : Option Placement) {edits : List Edit}
    (hdistinct : Distinct edits)
    (hin : ∀ e ∈ edits, isOutside s.text.utf8ByteSize e = false) (hnear : Neighbours edits) :
    s.renderFrom placement edits = s.walk placement (made edits) := by
  induction edits with
  | nil => rfl
  | cons e rest ih =>
      have htail := ih hdistinct.of_cons (fun x hx => hin x (List.mem_cons_of_mem _ hx)) hnear.tail
      rw [renderFrom, made_cons hdistinct]
      split
      · exact htail
      · rename_i hskip
        -- text is kept up to the next edit, which starts where the next one that is made does
        have huntil : s.keptUntil e rest.head? =
            ((made rest).head?.map (·.start)).getD s.text.utf8ByteSize := by
          cases rest with
          | nil => rfl
          | cons next rest =>
              obtain ⟨k, ks, hmade, hstart⟩ := made_eq_cons next rest
              obtain ⟨hpair, -⟩ := List.isChain_cons_cons.1 hnear
              have hne := List.rel_of_pairwise_cons hdistinct (List.mem_cons_self ..)
              rw [hmade, List.head?_cons, keptUntil_some_eq]
              · exact hstart.symm
              · intro he hnext
                rcases hpair he hnext with hsame | hle
                · -- with the same start the edit would be superseded
                  refine absurd ?_ hskip
                  simpa [isSuperseded, he, hnext, hsame] using fun ht => hne he hnext ⟨hsame, ht⟩
                · exact hle
        rw [keptFrom_eq (hin e (List.mem_cons_self ..)), huntil, htail, walk]

/-- The bytes of what is walked over. -/
theorem charBytes_walk {e : Edit} {rest : List Edit} {cs : List Char}
    (h : s.walk placement (e :: rest) = .ok cs) :
    charBytes cs = woven placement (utf8 s.text) e.start (e :: rest) := by
  induction rest generalizing e cs with
  | nil =>
      obtain ⟨kept, hkept, h⟩ := Outcome.bind_eq_ok.1 h
      obtain ⟨tail, htail, h⟩ := Outcome.bind_eq_ok.1 h
      cases htail
      cases h
      have hbytes := charBytes_slice? (slice_eq_ok.1 hkept)
      rw [← utf8_eq_charBytes, List.take_of_length_le (by simp)] at hbytes
      simp [woven, hbytes, utf8_eq_charBytes]
  | cons next rest ih =>
      obtain ⟨kept, hkept, h⟩ := Outcome.bind_eq_ok.1 h
      obtain ⟨tail, htail, h⟩ := Outcome.bind_eq_ok.1 h
      cases h
      have hbytes := charBytes_slice? (slice_eq_ok.1 hkept)
      have hnext := ih htail
      rw [← utf8_eq_charBytes] at hbytes
      rw [woven, Nat.sub_self, List.take_zero, List.nil_append] at hnext
      rw [woven, woven, charBytes_append, charBytes_append, hbytes, hnext,
        ← utf8_eq_charBytes (e.render placement)]
      simp

/-- The walk comes to an end when the edits come one after another and split no character. -/
theorem exists_walk_iff (s : Splice) (placement : Option Placement) {edits : List Edit}
    (hin : ∀ e ∈ edits, isOutside s.text.utf8ByteSize e = false) :
    (∃ cs, s.walk placement edits = .ok cs) ↔
      (edits.IsChain fun a b => a.behind ≤ b.start) ∧
        (∀ e ∈ edits, IsBoundary e.behind s.text.toList) ∧
        ∀ e ∈ edits.tail, IsBoundary e.start s.text.toList := by
  induction edits with
  | nil => simp [walk]
  | cons e rest ih =>
      obtain ⟨-, hlen⟩ := (isOutside_eq_false_iff _ e).1 (hin e (List.mem_cons_self ..))
      have hstep : (∃ cs, s.walk placement (e :: rest) = .ok cs) ↔
          (∃ kept, slice? e.behind ((rest.head?.map (·.start)).getD s.text.utf8ByteSize)
            s.text.toList = some kept) ∧ ∃ tail, s.walk placement rest = .ok tail := by
        simp only [walk, Outcome.bind_eq_ok, slice_eq_ok, pure, Except.pure, Except.ok.injEq]
        exact ⟨fun ⟨_, kept, hkept, tail, htail, _⟩ => ⟨⟨kept, hkept⟩, ⟨tail, htail⟩⟩,
          fun ⟨⟨kept, hkept⟩, ⟨tail, htail⟩⟩ => ⟨_, kept, hkept, tail, htail, rfl⟩⟩
      rw [hstep, exists_slice?_iff, ih fun x hx => hin x (List.mem_cons_of_mem _ hx)]
      cases rest with
      | nil =>
          have hend := isBoundary_byteLength s.text.toList
          rw [← utf8ByteSize_eq_byteLength] at hend
          simp [hlen, hend]
      | cons next rest =>
          simp only [List.head?_cons, Option.map_some, Option.getD_some, List.isChain_cons_cons,
            List.mem_cons, List.tail_cons, forall_eq_or_imp]
          tauto

/-! ### Edited texts -/

variable {text : String} {edits : List Edit}

/-- **The order in which edits are made does not depend on the one in which they are given**, when no
two different edits are as early as each other. -/
theorem arrange_congr {edits' : List Edit} (hperm : edits.Perm edits')
    (hdiffer : ∀ a ∈ edits, ∀ b ∈ edits, a.order b = .eq → a = b) :
    arrange edits = arrange edits' := by
  have hleft : (arrange edits).Pairwise fun a b => (a.order b).isLE = true :=
    List.pairwise_mergeSort Sorting.isLE_trans Sorting.isLE_total edits
  have hright : (arrange edits').Pairwise fun a b => (a.order b).isLE = true :=
    List.pairwise_mergeSort Sorting.isLE_trans Sorting.isLE_total edits'
  have hfrom : (arrange edits).Perm edits := List.mergeSort_perm edits _
  have hsame : (arrange edits).Perm (arrange edits') :=
    hfrom.trans (hperm.trans (List.mergeSort_perm edits' _).symm)
  refine hsame.eq_of_pairwise (fun a b ha hb hab hba => ?_) hleft hright
  have hb' : b ∈ edits := hfrom.subset (hsame.symm.subset hb)
  exact hdiffer a (hfrom.subset ha) b hb' (Std.OrientedCmp.isLE_antisymm hab hba)

/-- Edits of which none is as early as another one are told apart by the order. -/
theorem eq_of_order_eq {R : Edit → Edit → Prop} (h : edits.Pairwise R)
    (hne : ∀ a b, R a b → a.order b ≠ .eq) {a b : Edit} (ha : a ∈ edits) (hb : b ∈ edits)
    (hsame : a.order b = .eq) : a = b := by
  have hsymm : Std.Symm fun a b : Edit => a.order b ≠ .eq :=
    ⟨fun a b hab hba => hab (Std.OrientedCmp.eq_symm hba)⟩
  by_contra hdiffer
  exact (h.imp fun {a b} => hne a b).forall ha hb hdiffer hsame

/-- Edits of which none is as early as another one are made in that order. -/
theorem arrange_eq_of_perm {edits sorted : List Edit} (hperm : edits.Perm sorted)
    (hsorted : sorted.Pairwise fun a b => a.order b = .lt) : arrange edits = sorted := by
  have hne (a b : Edit) (hlt : a.order b = .lt) : a.order b ≠ .eq := by
    rw [hlt]
    decide
  have harranged : arrange edits = arrange sorted :=
    (arrange_congr hperm.symm fun a ha b hb => eq_of_order_eq hsorted hne ha hb).symm
  rw [harranged]
  exact List.mergeSort_of_pairwise (hsorted.imp fun hlt => by rw [hlt]; rfl)

theorem distinct_arrange (h : Distinct edits) : Distinct (arrange edits) := by
  refine (List.mergeSort_perm edits _).pairwise_iff ?_ |>.2 h
  intro a b hab hb ha hsame
  exact hab ha hb ⟨hsame.1.symm, hsame.2.symm⟩

theorem edited_eq_ok {out : String} :
    edited text edits placement = .ok out ↔
      checkFrom text none (arrange edits) = .ok () ∧
        (Splice.mk text (arrange edits)).render placement = .ok out := by
  simp only [edited, ofEdits, Outcome.bind_eq_ok, pure, Except.pure, Except.ok.injEq]
  exact ⟨fun ⟨_, ⟨_, hcheck, rfl⟩, hrender⟩ => ⟨hcheck, hrender⟩,
    fun ⟨hcheck, hrender⟩ => ⟨_, ⟨(), hcheck, rfl⟩, hrender⟩⟩

/-- What is rendered of checked edits is the walk from the start of the text. -/
theorem utf8_render (hdistinct : Distinct edits) (hcheck : checkFrom text none edits = .ok ())
    {out : String} (h : (Splice.mk text edits).render placement = .ok out) :
    utf8 out = woven placement (utf8 text) 0 (made edits) := by
  obtain ⟨hin, hnear⟩ := neighbours_of_checkFrom hcheck
  cases edits with
  | nil =>
      cases h
      rfl
  | cons first rest =>
      obtain ⟨k, ks, hmade, hstart⟩ := made_eq_cons first rest
      obtain ⟨head, hhead, h⟩ := Outcome.bind_eq_ok.1 h
      obtain ⟨tail, htail, h⟩ := Outcome.bind_eq_ok.1 h
      cases h
      rw [renderFrom_eq_walk _ _ hdistinct hin hnear, hmade] at htail
      have hbytes := charBytes_slice? (slice_eq_ok.1 hhead)
      have hrest := charBytes_walk htail
      rw [← utf8_eq_charBytes, ← hstart] at hbytes
      rw [woven, Nat.sub_self, List.take_zero, List.nil_append] at hrest
      rw [utf8_eq_charBytes, String.toList_ofList, charBytes_append, hbytes, hrest, hmade, woven,
        List.append_assoc]

/-- Checked edits render exactly when they come one after another and split no character. -/
theorem exists_render_iff (hdistinct : Distinct edits)
    (hcheck : checkFrom text none edits = .ok ()) :
    (∃ out, (Splice.mk text edits).render placement = .ok out) ↔
      ((made edits).IsChain fun a b => a.behind ≤ b.start) ∧
        ∀ e ∈ made edits, IsBoundary e.start text.toList ∧ IsBoundary e.behind text.toList := by
  obtain ⟨hin, hnear⟩ := neighbours_of_checkFrom hcheck
  cases edits with
  | nil => simp [made]
  | cons first rest =>
      obtain ⟨k, ks, hmade, hstart⟩ := made_eq_cons first rest
      have hins : ∀ e ∈ k :: ks, isOutside text.utf8ByteSize e = false := fun e he =>
        hin e ((made_sublist _).subset (hmade ▸ he))
      have hwalk := exists_walk_iff ⟨text, first :: rest⟩ placement hins
      have heq := renderFrom_eq_walk ⟨text, first :: rest⟩ placement hdistinct hin hnear
      have hstep : (∃ out, (Splice.mk text (first :: rest)).render placement = .ok out) ↔
          (∃ head, slice? 0 first.start text.toList = some head) ∧
            ∃ tail, (Splice.mk text (first :: rest)).walk placement (k :: ks) = .ok tail := by
        simp only [render, Outcome.bind_eq_ok, slice_eq_ok, pure, Except.pure, Except.ok.injEq,
          heq, hmade]
        exact ⟨fun ⟨_, head, hhead, tail, htail, _⟩ => ⟨⟨head, hhead⟩, ⟨tail, htail⟩⟩,
          fun ⟨⟨head, hhead⟩, ⟨tail, htail⟩⟩ => ⟨_, head, hhead, tail, htail, rfl⟩⟩
      rw [hstep, hwalk, exists_slice?_iff, hmade, ← hstart]
      have hzero := isBoundary_zero text.toList
      have hle := Nat.zero_le k.start
      simp only [List.mem_cons, List.tail_cons, forall_eq_or_imp, forall_and]
      tauto

/-- **Edits that fit are made where they say, and nothing else is changed.**  When they do not fit,
the outcome is a fault of editing, and never another text. -/
theorem edited_spec (text : String) (edits : List Edit) (placement : Option Placement)
    (hdistinct : Distinct edits) :
    (∀ out, edited text edits placement = .ok out →
      utf8 out = spliced placement (made (arrange edits)) (utf8 text)) ∧
    (∀ f, edited text edits placement = .error f → f.kind = .editing) ∧
    ((∃ out, edited text edits placement = .ok out) ↔ Fits text edits) := by
  have harranged := distinct_arrange hdistinct
  have hmem (e : Edit) : e ∈ arrange edits ↔ e ∈ edits := (List.mergeSort_perm edits _).mem_iff
  refine ⟨fun out h => ?_, fun f h => ?_, fun ⟨out, h⟩ => ?_, fun h => ?_⟩
  · obtain ⟨hcheck, hrender⟩ := edited_eq_ok.1 h
    obtain ⟨hin, -⟩ := neighbours_of_checkFrom hcheck
    obtain ⟨hapart, -⟩ := (exists_render_iff harranged hcheck).1 ⟨out, hrender⟩
    rw [utf8_render harranged hcheck hrender, woven_eq_flatMap hapart
      (fun e he => by rw [length_utf8]; exact hin e ((made_sublist _).subset he))
      (fun e _ => Nat.zero_le e.start) (Nat.zero_le _), spliced, List.range_eq_range', Nat.sub_zero]
  · rcases Outcome.bind_eq_error.1 h with h | ⟨s, -, h⟩
    · rcases Outcome.bind_eq_error.1 h with h | ⟨_, -, h⟩
      · exact kind_of_checkFrom h
      · cases h
    · exact kind_of_render h
  · obtain ⟨hcheck, hrender⟩ := edited_eq_ok.1 h
    obtain ⟨hin, -⟩ := neighbours_of_checkFrom hcheck
    obtain ⟨hapart, hbetween⟩ := (exists_render_iff harranged hcheck).1 ⟨out, hrender⟩
    exact ⟨fun e he => hin e ((hmem e).2 he), hapart, hbetween⟩
  · have hcheck : checkFrom text none (arrange edits) = .ok () :=
      checkFrom_of_apart (fun e he => h.inside e ((hmem e).1 he)) h.apart (by simp)
    obtain ⟨out, hrender⟩ := (exists_render_iff harranged hcheck).2 ⟨h.apart, h.between⟩
    exact ⟨out, edited_eq_ok.2 ⟨hcheck, hrender⟩⟩

/-- A column replaced and another one added directly behind it. -/
theorem edited_spec_select_list :
    Distinct [.encryption 7 7 "b", .projections 8 ["c"]] ∧
      ∃ out, edited "SELECT a FROM t" [.encryption 7 7 "b", .projections 8 ["c"]] none = .ok out ∧
        utf8 out = utf8 "SELECT b, c FROM t" := by
  have hdistinct : Distinct [.encryption 7 7 "b", .projections 8 ["c"]] := by decide
  have harrange : arrange [.encryption 7 7 "b", .projections 8 ["c"]] =
      [.encryption 7 7 "b", .projections 8 ["c"]] := List.mergeSort_of_pairwise (by decide)
  obtain ⟨htext, -, hfits⟩ :=
    edited_spec "SELECT a FROM t" [.encryption 7 7 "b", .projections 8 ["c"]] none hdistinct
  have hmade : made (arrange [.encryption 7 7 "b", .projections 8 ["c"]]) =
      [.encryption 7 7 "b", .projections 8 ["c"]] := by rw [harrange]; rfl
  obtain ⟨out, hout⟩ := hfits.2
    { inside := by decide
      apart := by rw [hmade]; decide
      between := by
        have hbefore : IsBoundary 7 "SELECT a FROM t".toList :=
          ⟨"SELECT ".toList, "a FROM t".toList, by decide, by decide⟩
        have hafter : IsBoundary 8 "SELECT a FROM t".toList :=
          ⟨"SELECT a".toList, " FROM t".toList, by decide, by decide⟩
        rw [hmade]
        exact List.forall_mem_cons.2
          ⟨⟨hbefore, hafter⟩, List.forall_mem_singleton.2 ⟨hafter, hafter⟩⟩ }
  refine ⟨hdistinct, out, hout, ?_⟩
  rw [htext out hout, hmade]
  decide +kernel

/-- **The order in which edits are given does not matter.**  When they differ in start, kind or stop
the outcome is the same, be it a text or a fault. -/
theorem edited_of_perm {edits edits' : List Edit} (hperm : edits.Perm edits')
    (hdiffer : edits.Pairwise fun a b =>
      ¬ (a.start = b.start ∧ a.rank = b.rank ∧ a.stop? = b.stop?))
    (text : String) (placement : Option Placement) :
    edited text edits placement = edited text edits' placement := by
  have hsame : ∀ a ∈ edits, ∀ b ∈ edits, a.order b = .eq → a = b := fun a ha b hb =>
    eq_of_order_eq hdiffer (fun a b => (Edit.order_eq_iff a b).not.2) ha hb
  rw [edited, edited, ofEdits, ofEdits, arrange_congr hperm hsame]

/-- A table, a column list that is extended, and a row, given from the last to the first. -/
theorem edited_of_perm_insertion :
    [Edit.encryption 25 27 "(2)", .insertColumns 16 ["b"], .table 12 12 "t"].Perm
        [.table 12 12 "t", .insertColumns 16 ["b"], .encryption 25 27 "(2)"] ∧
      [Edit.encryption 25 27 "(2)", .insertColumns 16 ["b"], .table 12 12 "t"].Pairwise
        (fun a b => ¬ (a.start = b.start ∧ a.rank = b.rank ∧ a.stop? = b.stop?)) ∧
      edited "INSERT INTO t (a) VALUES (1)"
        [.encryption 25 27 "(2)", .insertColumns 16 ["b"], .table 12 12 "t"] none =
          .ok "INSERT INTO t (a, b) VALUES (2)" := by
  have hperm : [Edit.encryption 25 27 "(2)", .insertColumns 16 ["b"], .table 12 12 "t"].Perm
      [.table 12 12 "t", .insertColumns 16 ["b"], .encryption 25 27 "(2)"] := by decide
  have hdiffer : [Edit.encryption 25 27 "(2)", .insertColumns 16 ["b"], .table 12 12 "t"].Pairwise
      (fun a b => ¬ (a.start = b.start ∧ a.rank = b.rank ∧ a.stop? = b.stop?)) := by decide
  have harrange : arrange [.table 12 12 "t", .insertColumns 16 ["b"], .encryption 25 27 "(2)"] =
      [.table 12 12 "t", .insertColumns 16 ["b"], .encryption 25 27 "(2)"] :=
    List.mergeSort_of_pairwise (by decide)
  refine ⟨hperm, hdiffer, ?_⟩
  rw [edited_of_perm hperm hdiffer, edited, ofEdits, harrange]
  decide +kernel

end Splice

end ShardedSql
