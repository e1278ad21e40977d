/-
**An expression stands for all combinations of the values in it.**

An expression is given here by its segments, and a segment by its pieces: literal text, which is
taken as it is, and placeholders, of which one value is taken.  Its names are written out piece by
piece, one for each way to take the values, and ways that take earlier values of the first
placeholder come first.

Reading an expression does not follow the pieces.  It cuts the text at commas by the depth of
braces, looks for the beginning and the end of placeholders, and puts all values behind all the
beginnings made so far.  The proof takes these steps one after another: `Passed` says that commas
inside a text do not cut it, and `layout` is what is left of the pieces when literal text that
stands side by side is put together.

Main definitions:

* `ShardedSql.Inline.Piece`, `ShardedSql.Inline.Segment` — the parts of an expression;
* `ShardedSql.Inline.Segment.names` — **the names that a segment stands for**.

Main results:

* `ShardedSql.Inline.splitTopLevel_intercalate` — an expression is cut into its segments;
* `ShardedSql.Inline.scan_text` — a segment is read as its pieces;
* `ShardedSql.Inline.combine_layout` — all the choices are combined in order;
* `ShardedSql.Inline.expand_written` — **every expression stands for the names of its segments**.
-/

import ShardedSql.Proofs.Inline.Slots
import ShardedSql.Proofs.Lists.Choices
import ShardedSql.Proofs.Outcome

set_option relaxedAutoImplicit false
set_option autoImplicit false

namespace ShardedSql.Inline

open Text (isBlank trimChars IsTrimmed)

/-! ### Expressions -/

/-- A part of a segment. -/
inductive Piece where
  /-- Text that is taken as it is. -/
  | literal (text : List Char) (ne_nil : text ≠ []) (isPlain : ∀ c ∈ text, isMark c = false)
  /-- A placeholder. -/
  | slot (s : Slot)

namespace Piece

/-- The text of a part. -/
def text : Piece → List Char
  | .literal text _ _ => text
  | .slot s => '$' :: '\x7b' :: s.body ++ ['\x7d']

/-- What may be taken for a part, in order. -/
def values : Piece → List (List Char)
  | .literal text _ _ => [text]
  | .slot s => s.values

/-- A text is one of those that may be taken for a part: literal text itself, an integer of a range
or a value of a list. -/
def IsTaken (taken : List Char) : Piece → Prop
  | .literal text _ _ => taken = text
  | .slot (.range first last _) =>
      ∃ n : Int, first.toInt ≤ n ∧ n ≤ last.toInt ∧ taken = (toString n).toList
  | .slot (.list items _) => ∃ i ∈ items, taken = i.text

theorem mem_values_iff {p : Piece} {taken : List Char} : taken ∈ p.values ↔ IsTaken taken p := by
  cases p with
  | literal text _ _ => exact List.mem_singleton
  | slot s =>
      cases s with
      | range first last h =>
          have hle : first.toInt ≤ last.toInt := Int64.le_iff_toInt_le.1 h
          simp only [values, Slot.values, IsTaken, List.mem_map, List.mem_range]
          constructor
          · rintro ⟨i, hi, rfl⟩
            exact ⟨first.toInt + i, by omega, by omega, rfl⟩
          · rintro ⟨n, hlow, hhigh, rfl⟩
            have hplace : first.toInt + ((n - first.toInt).toNat : Int) = n := by omega
            exact ⟨(n - first.toInt).toNat, by omega, by rw [hplace]⟩
      | list items _ => simp only [values, Slot.values, IsTaken, List.mem_map, eq_comm]

end Piece

/-- A segment, with the white space around it. -/
structure Segment where
  front : List Char
  pieces : List Piece
  back : List Char
  front_blank : ∀ c ∈ front, isBlank c = true
  back_blank : ∀ c ∈ back, isBlank c = true
  ne_nil : pieces ≠ []
  isTrimmed : IsTrimmed (pieces.flatMap Piece.text)

namespace Segment

/-- The text of a segment. -/
def text (s : Segment) : List Char := s.pieces.flatMap Piece.text

/-- The segment as it is written. -/
def written (s : Segment) : List Char := s.front ++ s.text ++ s.back

/-- All ways to take something for each part. -/
def ways (s : Segment) : List (List (List Char)) := Lists.choices (s.pieces.map Piece.values)

/-- The names that a segment stands for. -/
def names (s : Segment) : List String := s.ways.map fun way => String.ofList way.flatten

theorem mem_names_iff {s : Segment} {name : String} :
    name ∈ s.names ↔
      ∃ way, List.Forall₂ Piece.IsTaken way s.pieces ∧ name = String.ofList way.flatten := by
  simp only [names, ways, List.mem_map, Lists.mem_choices, List.forall₂_map_right_iff,
    Piece.mem_values_iff, eq_comm (a := name)]

/-- There is a name for each combination. -/
theorem length_names (s : Segment) :
    s.names.length = (s.pieces.map fun p => p.values.length).foldr (· * ·) 1 := by
  rw [names, List.length_map, ways, Lists.length_choices, List.map_map]
  rfl

end Segment

/-- The text of an expression: its segments with commas between them. -/
def written (segments : List Segment) : String :=
  String.ofList ([','].intercalate (segments.map Segment.written))

/-! ### Cutting at commas -/

/-- Commas inside a text do not cut an expression, and its braces match. -/
def Passed (cs : List Char) : Prop :=
  ∀ current rest, splitTopLevel 0 current (cs ++ rest) = splitTopLevel 0 (current ++ cs) rest

namespace Passed

theorem nil : Passed [] := fun current rest => by
  rw [List.nil_append, List.append_nil]

theorem append {cs ds : List Char} (hcs : Passed cs) (hds : Passed ds) : Passed (cs ++ ds) :=
  fun current rest => by
    rw [List.append_assoc, hcs, hds, List.append_assoc]

theorem flatMap {α : Type} {f : α → List Char} {as : List α} (h : ∀ a ∈ as, Passed (f a)) :
    Passed (as.flatMap f) := by
  induction as with
  | nil => exact nil
  | cons a as ih =>
      obtain ⟨ha, has⟩ := List.forall_mem_cons.1 h
      exact ha.append (ih has)

end Passed

theorem isMark_eq_false_iff {c : Char} :
    isMark c = false ↔ c ≠ ',' ∧ c ≠ '\x7b' ∧ c ≠ '\x7d' := by
  simp [isMark, and_assoc]

theorem passed_of_plain {cs : List Char} (h : ∀ c ∈ cs, isMark c = false) : Passed cs := by
  induction cs with
  | nil => exact .nil
  | cons c cs ih =>
      obtain ⟨hc, hcs⟩ := List.forall_mem_cons.1 h
      obtain ⟨hcomma, hopen, hclose⟩ := isMark_eq_false_iff.1 hc
      intro current rest
      rw [List.cons_append, splitTopLevel, if_neg hopen, if_neg hclose,
        if_neg fun hcut => hcomma hcut.1, ih hcs, List.append_assoc, List.singleton_append]

theorem passed_of_blank {cs : List Char} (h : ∀ c ∈ cs, isBlank c = true) : Passed cs := by
  refine passed_of_plain fun c hc => isMark_eq_false_iff.2 ⟨?_, ?_, ?_⟩ <;>
  · rintro rfl
    exact absurd (h _ hc) (by decide)

/-- Inside braces nothing is cut. -/
theorem splitTopLevel_inside {cs : List Char} (hopen : '\x7b' ∉ cs) (hclose : '\x7d' ∉ cs)
    (current rest : List Char) :
    splitTopLevel 1 current (cs ++ rest) = splitTopLevel 1 (current ++ cs) rest := by
  induction cs generalizing current with
  | nil => rw [List.nil_append, List.append_nil]
  | cons c cs ih =>
      obtain ⟨hc, hopen⟩ := not_or.1 (List.mem_cons.not.1 hopen)
      obtain ⟨hc', hclose⟩ := not_or.1 (List.mem_cons.not.1 hclose)
      rw [List.cons_append, splitTopLevel, if_neg (Ne.symm hc), if_neg (Ne.symm hc'),
        if_neg fun hcut => absurd hcut.2 (by decide), ih hopen hclose, List.append_assoc,
        List.singleton_append]

/-- A placeholder is not cut. -/
theorem passed_slot (s : Slot) : Passed (Piece.slot s).text := by
  intro current rest
  have htext : (Piece.slot s).text ++ rest = '$' :: '\x7b' :: (s.body ++ '\x7d' :: rest) := by
    simp [Piece.text]
  rw [htext, splitTopLevel, if_neg (by decide), if_neg (by decide), if_neg (by decide),
    splitTopLevel, if_pos rfl, splitTopLevel_inside (s.not_mem_body (.inl rfl))
      (s.not_mem_body (.inr rfl)), splitTopLevel, if_neg (by decide), if_pos rfl,
    if_neg (by decide)]
  simp [Piece.text]

theorem Segment.passed_written (s : Segment) : Passed s.written := by
  refine ((passed_of_blank s.front_blank).append (.flatMap fun p _ => ?_)).append
    (passed_of_blank s.back_blank)
  cases p with
  | literal text _ isPlain => exact passed_of_plain isPlain
  | slot slot => exact passed_slot slot

/-- **An expression is cut into its segments.** -/
theorem splitTopLevel_intercalate {t : List Char} {texts : List (List Char)}
    (h : ∀ u ∈ t :: texts, Passed u) (current : List Char) :
    splitTopLevel 0 current ([','].intercalate (t :: texts)) = some ((current ++ t) :: texts) := by
  induction texts generalizing t current with
  | nil =>
      have ht := h t List.mem_cons_self current []
      rw [List.append_nil] at ht
      rw [List.intercalate_singleton, ht]
      rfl
  | cons u texts ih =>
      obtain ⟨ht, hrest⟩ := List.forall_mem_cons.1 h
      rw [List.intercalate_cons_cons, List.append_assoc, List.singleton_append, ht, splitTopLevel,
        if_neg (by decide), if_neg (by decide), if_pos ⟨rfl, rfl⟩, ih hrest]
      rfl

/-! ### Finding the placeholders -/

/-- The placeholders of a segment, each with the literal text before it, and the literal text behind
the last.  `literal` is what stands before the first piece. -/
def layout (literal : List Char) : List Piece → List (List Char × Slot) × List Char
  | [] => ([], literal)
  | .literal text _ _ :: rest => layout (literal ++ text) rest
  | .slot s :: rest => ((literal, s) :: (layout [] rest).1, (layout [] rest).2)

/-- Literal text is read as it is. -/
theorem scan_plain {cs rest : List Char} (hcs : '\x7b' ∉ cs) (hrest : rest.head? ≠ some '\x7b')
    (literal : List Char) : scan literal none (cs ++ rest) = scan (literal ++ cs) none rest := by
  induction cs generalizing literal with
  | nil => rw [List.nil_append, List.append_nil]
  | cons c cs ih =>
      obtain ⟨-, hcs⟩ := not_or.1 (List.mem_cons.not.1 hcs)
      have hnext : (cs ++ rest).head? ≠ some '\x7b' := by
        cases cs with
        | nil => exact hrest
        | cons d cs => exact fun h => hcs (Option.some.inj h ▸ List.mem_cons_self)
      rw [List.cons_append, scan, ih hcs, List.append_assoc, List.singleton_append]
      -- a placeholder begins with a brace behind the dollar sign
      rintro _ - h
      exact hnext (by rw [h]; rfl)

/-- A placeholder ends with the next brace. -/
theorem scan_body {body : List Char} (hopen : '\x7b' ∉ body) (hclose : '\x7d' ∉ body)
    (literal b rest : List Char) :
    scan literal (some b) (body ++ '\x7d' :: rest) =
      (scan [] none rest).map fun p => (⟨literal, b ++ body⟩ :: p.1, p.2) := by
  induction body generalizing b with
  | nil => rw [List.nil_append, scan, if_pos rfl, List.append_nil]; simp
  | cons c body ih =>
      obtain ⟨-, hopen⟩ := not_or.1 (List.mem_cons.not.1 hopen)
      obtain ⟨hc, hclose⟩ := not_or.1 (List.mem_cons.not.1 hclose)
      rw [List.cons_append, scan, if_neg (Ne.symm hc), ih hopen hclose, List.append_assoc,
        List.singleton_append]
      rintro _ - h
      cases body with
      | nil => cases h
      | cons d body => exact hopen ((List.cons.inj h).1 ▸ List.mem_cons_self)

/-- No part of a segment begins with a brace. -/
theorem head?_flatMap_text (pieces : List Piece) :
    (pieces.flatMap Piece.text).head? ≠ some '\x7b' := by
  cases pieces with
  | nil => simp
  | cons p rest =>
      cases p with
      | slot s => simp [Piece.text]
      | literal text ne_nil isPlain =>
          obtain ⟨c, cs, rfl⟩ := List.exists_cons_of_ne_nil ne_nil
          rintro ⟨⟩
          exact absurd (isPlain _ List.mem_cons_self) (by decide)

/-- **A segment is read as its placeholders, with the literal text between them.** -/
theorem scan_text (pieces : List Piece) (literal : List Char) :
    scan literal none (pieces.flatMap Piece.text) =
      some ((layout literal pieces).1.map fun p => ⟨p.1, p.2.body⟩, (layout literal pieces).2) := by
  induction pieces generalizing literal with
  | nil => rfl
  | cons p rest ih =>
      rw [List.flatMap_cons]
      cases p with
      | literal text _ isPlain =>
          have hopen : '\x7b' ∉ text := fun h => absurd (isPlain _ h) (by decide)
          rw [Piece.text, scan_plain hopen (head?_flatMap_text rest), ih, layout]
      | slot s =>
          have htext : (Piece.slot s).text ++ rest.flatMap Piece.text =
              '$' :: '\x7b' :: (s.body ++ '\x7d' :: rest.flatMap Piece.text) := by
            simp [Piece.text]
          rw [htext, scan, scan_body (s.not_mem_body (.inl rfl)) (s.not_mem_body (.inr rfl)), ih,
            layout]
          rfl

/-! ### Combining the values -/

/-- **Values put behind all beginnings, placeholder by placeholder, are all the ways in order.** -/
theorem combine_layout (pieces : List Piece) (literal : List Char) (starts : List (List Char)) :
    (combine starts ((layout literal pieces).1.map fun p => (p.1, p.2.values))).map
        (· ++ (layout literal pieces).2) =
      starts.flatMap fun s => (Lists.choices (pieces.map Piece.values)).map fun way =>
        s ++ literal ++ way.flatten := by
  induction pieces generalizing literal starts with
  | nil => simp [layout, combine, Lists.choices, List.map_eq_flatMap]
  | cons p rest ih =>
      cases p with
      | literal text _ _ =>
          simp [layout, ih, Lists.choices, Piece.values, Function.comp_def]
      | slot s =>
          simp [layout, combine, ih, Lists.choices, Piece.values, List.flatMap_assoc,
            List.map_flatMap, List.flatMap_map, Function.comp_def]

/-- A segment stands for its names. -/
theorem expandSegment_text (s : Segment) : expandSegment s.text = .ok s.names := by
  have hparts : ((layout [] s.pieces).1.map fun p => (⟨p.1, p.2.body⟩ : Placeholder)).mapM
      (fun p => do
        let values ← choices (String.ofList s.text) p.body
        pure (p.literal, values)) =
      (.ok ((layout [] s.pieces).1.map fun p => (p.1, p.2.values)) : Outcome _) := by
    rw [Outcome.mapM_eq_ok_iff_map, List.map_map, List.map_map]
    refine List.map_congr_left fun p _ => ?_
    rw [Function.comp_apply, Slot.choices_body]
    rfl
  have hcombined := combine_layout s.pieces [] [[]]
  rw [List.flatMap_singleton] at hcombined
  have hnames : (combine [[]] ((layout [] s.pieces).1.map fun p => (p.1, p.2.values))).map
      (fun name => String.ofList (name ++ (layout [] s.pieces).2)) = s.names := by
    have hmap := congrArg (List.map String.ofList) hcombined
    rwa [List.map_map, List.map_map] at hmap
  rw [expandSegment, Segment.text, scan_text]
  simp only
  rw [← Segment.text, hparts]
  exact congrArg Except.ok hnames

/-! ### Whole expressions -/

theorem Segment.text_ne_nil (s : Segment) : s.text ≠ [] := by
  obtain ⟨p, rest, hpieces⟩ := List.exists_cons_of_ne_nil s.ne_nil
  rw [text, hpieces, List.flatMap_cons]
  cases p with
  | literal text ne_nil _ => exact List.append_ne_nil_of_left_ne_nil ne_nil _
  | slot slot => simp [Piece.text]

/-- The white space around a segment does not count. -/
theorem Segment.trimChars_written (s : Segment) : trimChars s.written = s.text :=
  Text.trimChars_eq s.front_blank s.back_blank s.text_ne_nil s.isTrimmed

theorem expand_eq (segments : List Segment) :
    expand (written segments) = .ok (segments.flatMap Segment.names) := by
  cases segments with
  | nil => rfl
  | cons s rest =>
      have hcut : splitTopLevel 0 [] (written (s :: rest)).toList =
          some ((s :: rest).map Segment.written) := by
        rw [written, String.toList_ofList, List.map_cons]
        refine splitTopLevel_intercalate (fun u hu => ?_) []
        rw [← List.map_cons] at hu
        obtain ⟨t, -, rfl⟩ := List.mem_map.1 hu
        exact t.passed_written
      have hkept : ((s :: rest).map Segment.written |>.map trimChars).filter
          (fun t => !t.isEmpty) = (s :: rest).map Segment.text := by
        rw [List.map_map, List.map_congr_left fun t _ => t.trimChars_written]
        refine List.filter_eq_self.2 fun t ht => ?_
        obtain ⟨u, -, rfl⟩ := List.mem_map.1 ht
        simpa using u.text_ne_nil
      have hnames : ((s :: rest).map Segment.text).mapM expandSegment =
          .ok ((s :: rest).map Segment.names) := by
        rw [Outcome.mapM_eq_ok_iff_map, List.map_map, List.map_map]
        exact List.map_congr_left fun t _ => expandSegment_text t
      rw [expand, hcut]
      simp only
      rw [hkept, hnames]
      rfl

/-- **An expression stands for the names of its segments, one after another.**  The names of a
segment are all concatenations of what may be taken for its pieces, one for each combination, and
they are in lexicographic order of the places at which it stands among what may be taken. -/
theorem expand_written (segments : List Segment) :
    expand (written segments) = .ok (segments.flatMap Segment.names) ∧
      ∀ s ∈ segments,
        (∀ name, name ∈ s.names ↔
          ∃ way, List.Forall₂ Piece.IsTaken way s.pieces ∧ name = String.ofList way.flatten) ∧
        s.names.length = (s.pieces.map fun p => p.values.length).foldr (· * ·) 1 ∧
        ∃ places : List (List Nat),
          (∀ c, c ∈ places ↔ List.Forall₂ (fun i p => i < p.values.length) c s.pieces) ∧
          places.Pairwise (List.Lex (· < ·)) ∧
          List.Forall₂ (fun c way => List.zipWith (fun p i => p.values[i]?) s.pieces c = way.map some)
            places s.ways := by
  refine ⟨expand_eq segments, fun s _ => ⟨fun name => s.mem_names_iff, s.length_names,
    Lists.places (s.pieces.map Piece.values), fun c => ?_, Lists.pairwise_places _, ?_⟩⟩
  · rw [Lists.mem_places, List.forall₂_map_right_iff]
  · refine (Lists.choices_at_places (s.pieces.map Piece.values)).imp fun c way hway => ?_
    rwa [List.zipWith_map_left] at hway

example :
    ∃ s : Segment, written [s] = "ds_$\x7b-1..0\x7d.t_$\x7b[a, b]\x7d" ∧
      s.names = ["ds_-1.t_a", "ds_-1.t_b", "ds_0.t_a", "ds_0.t_b"] := by
  let a : Item := ⟨[], ['a'], [], by simp, by simp, by simp, by simp [IsTrimmed, isBlank],
    by simp [isReserved, isMark, isQuote], by decide⟩
  let b : Item := ⟨[' '], ['b'], [], by simp [isBlank], by simp, by simp,
    by simp [IsTrimmed, isBlank], by simp [isReserved, isMark, isQuote], by decide⟩
  let pieces : List Piece :=
    [.literal ['d', 's', '_'] (by simp) (by simp [isMark]), .slot (.range (-1) 0 (by decide)),
      .literal ['.', 't', '_'] (by simp) (by simp [isMark]), .slot (.list [a, b] (by simp))]
  have htrimmed : IsTrimmed (pieces.flatMap Piece.text) := by
    refine ⟨?_, ?_⟩ <;>
    · rintro _ ⟨⟩
      rfl
  exact ⟨⟨[], pieces, [], by simp, by simp, by simp [pieces], htrimmed⟩, rfl, rfl⟩

end ShardedSql.Inline
