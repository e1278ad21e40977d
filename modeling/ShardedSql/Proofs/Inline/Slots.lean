/-
**The values of a placeholder are those that are written in it.**

A placeholder has a range of integers or a list of values.  Which of the two it has is told by two
dots in a row, so the values of a list may have dots, but not two of them side by side.  White
space may stand around every value of a list.

Main definitions:

* `ShardedSql.Inline.Item` — a value as a list has it;
* `ShardedSql.Inline.Slot` — what a placeholder has, with its text `Slot.body` and its values
  `Slot.values`.

Main results:

* `ShardedSql.Text.trimChars_eq` — what is trimmed off is the white space around a text;
* `ShardedSql.Inline.Slot.choices_body` — **the values of a placeholder are read off its text**.
-/

import ShardedSql.Inline
import ShardedSql.Proofs.Text.Integer

set_option relaxedAutoImplicit false
set_option autoImplicit false

namespace ShardedSql

/-! ### White space -/

namespace Text

/-- A text has no white space at its ends. -/
abbrev IsTrimmed (cs : List Char) : Prop :=
  (∀ c ∈ cs.head?, isBlank c = false) ∧ ∀ c ∈ cs.getLast?, isBlank c = false

/-- What is trimmed off is the white space around a text. -/
theorem trimChars_eq {front cs back : List Char} (hfront : ∀ c ∈ front, isBlank c)
    (hback : ∀ c ∈ back, isBlank c) (hne : cs ≠ []) (hcs : IsTrimmed cs) :
    trimChars (front ++ cs ++ back) = cs := by
  have hhead : ∀ c ∈ (cs ++ back).head?, isBlank c = false := by
    obtain ⟨c, rest, rfl⟩ := List.exists_cons_of_ne_nil hne
    exact hcs.1
  have hlast : ∀ c ∈ cs.reverse.head?, isBlank c = false := by
    rw [List.head?_reverse]
    exact hcs.2
  have hbehind : ∀ c ∈ back.reverse, isBlank c := fun c hc => hback c (List.mem_reverse.1 hc)
  rw [trimChars, List.append_assoc, List.dropWhile_append_of_pos hfront, dropWhile_eq_self hhead,
    List.reverse_append, List.dropWhile_append_of_pos hbehind, dropWhile_eq_self hlast,
    List.reverse_reverse]

theorem trimChars_of_isTrimmed {cs : List Char} (hne : cs ≠ []) (hcs : IsTrimmed cs) :
    trimChars cs = cs := by
  have hnone : ∀ c ∈ ([] : List Char), isBlank c := by simp
  have h := trimChars_eq hnone hnone hne hcs
  rwa [List.nil_append, List.append_nil] at h

/-- A numeral has digits and a minus sign, and nothing else. -/
theorem not_mem_numeral {n : Int} {c : Char} (hminus : c ≠ '-') (hdigit : isDigit c = false) :
    c ∉ numeral n := by
  have hdigits : c ∉ Nat.toDigits 10 n.natAbs := by
    intro hc
    have h := (isDigit_eq c).trans (Nat.isDigit_of_mem_toDigits (by omega) (by omega) hc)
    cases hdigit.symm.trans h
  unfold numeral
  split
  · exact not_or.2 ⟨hminus, hdigits⟩ ∘ List.mem_cons.1
  · exact hdigits

end Text

namespace Inline

open Text (isBlank trimChars IsTrimmed)

/-! ### Two dots in a row -/

theorem splitAtDots?_eq_none_iff {cs : List Char} :
    splitAtDots? cs = none ↔ ¬ ['.', '.'] <:+: cs := by
  fun_induction splitAtDots? cs with
  | case1 rest => simp [List.infix_cons_iff]
  | case2 c rest hdots ih =>
      rw [Option.map_eq_none_iff, ih, List.infix_cons_iff, not_or, List.cons_prefix_cons]
      refine ⟨fun h => ⟨?_, h⟩, fun h => h.2⟩
      rintro ⟨rfl, hdot⟩
      obtain ⟨rest', rfl⟩ := hdot
      exact hdots rest' rfl rfl
  | case3 => simp

/-- A text without dots is split off before two dots in a row. -/
theorem splitAtDots?_append {front : List Char} (h : '.' ∉ front) (rest : List Char) :
    splitAtDots? (front ++ ['.', '.'] ++ rest) = some (front, rest) := by
  induction front with
  | nil => rfl
  | cons c front ih =>
      obtain ⟨hc, hfront⟩ := not_or.1 (List.mem_cons.not.1 h)
      have hne : c ≠ '.' := fun heq => hc heq.symm
      rw [List.cons_append, List.cons_append, splitAtDots?, ih hfront]
      · rfl
      · rintro _ rfl
        exact absurd rfl hne

theorem not_infix_dots {cs : List Char} (h : '.' ∉ cs) : ¬ ['.', '.'] <:+: cs :=
  fun hdots => h (hdots.subset List.mem_cons_self)

/-- Two dots in a row do not reach across another character. -/
theorem infix_dots_append_cons {front back : List Char} {c : Char} (hc : c ≠ '.') :
    ['.', '.'] <:+: front ++ c :: back ↔ ['.', '.'] <:+: front ∨ ['.', '.'] <:+: back := by
  induction front with
  | nil =>
      have hne : '.' ≠ c := fun heq => hc heq.symm
      simp [List.infix_cons_iff, List.cons_prefix_cons, hne]
  | cons d front ih =>
      rw [List.cons_append, List.infix_cons_iff, List.infix_cons_iff, ih, or_assoc]
      refine or_congr_left ?_
      cases front with
      | nil => simp [List.cons_prefix_cons, hc.symm]
      | cons e front => simp [List.cons_prefix_cons]

/-- Text without dots around another text adds no dots in a row. -/
theorem not_infix_dots_around {front cs back : List Char} (hfront : '.' ∉ front)
    (hback : '.' ∉ back) (h : ¬ ['.', '.'] <:+: cs) : ¬ ['.', '.'] <:+: front ++ cs ++ back := by
  have hleft : ¬ ['.', '.'] <:+: front ++ cs := by
    rcases List.eq_nil_or_concat front with rfl | ⟨before, c, rfl⟩
    · exact h
    · rw [List.concat_eq_append, List.mem_append, List.mem_singleton, not_or] at hfront
      rw [List.concat_eq_append, List.append_assoc, List.singleton_append,
        infix_dots_append_cons (Ne.symm hfront.2)]
      exact not_or.2 ⟨not_infix_dots hfront.1, h⟩
  cases back with
  | nil => rwa [List.append_nil]
  | cons c back =>
      obtain ⟨hc, hback⟩ := not_or.1 (List.mem_cons.not.1 hback)
      rw [infix_dots_append_cons (Ne.symm hc)]
      exact not_or.2 ⟨hleft, not_infix_dots hback⟩

/-! ### Commas between texts -/

/-- What holds of texts, and of two texts with a comma between them, holds of all of them with
commas between them. -/
theorem intercalate_induction {P : List Char → Prop} (hnil : P [])
    (hcomma : ∀ a b, P a → P b → P (a ++ ',' :: b)) {texts : List (List Char)}
    (h : ∀ t ∈ texts, P t) : P ([','].intercalate texts) := by
  induction texts with
  | nil => exact hnil
  | cons t rest ih =>
      obtain ⟨ht, hrest⟩ := List.forall_mem_cons.1 h
      cases rest with
      | nil =>
          rw [List.intercalate_singleton]
          exact ht
      | cons u rest =>
          rw [List.intercalate_cons_cons, List.append_assoc, List.singleton_append]
          exact hcomma _ _ ht (ih hrest)

/-! ### Placeholders -/

/-- A comma or a brace: what no text beside a placeholder has. -/
def isMark (c : Char) : Bool := c = ',' || c = '\x7b' || c = '\x7d'

/-- What no value of a list has. -/
def isReserved (c : Char) : Bool := isMark c || c = '[' || c = ']' || isQuote c

/-- A value as a list has it, with the white space around it. -/
structure Item where
  front : List Char
  text : List Char
  back : List Char
  front_blank : ∀ c ∈ front, isBlank c = true
  back_blank : ∀ c ∈ back, isBlank c = true
  ne_nil : text ≠ []
  isTrimmed : IsTrimmed text
  isPlain : ∀ c ∈ text, isReserved c = false
  noDots : ¬ ['.', '.'] <:+: text

namespace Item

/-- The value as it is written. -/
def written (i : Item) : List Char := i.front ++ i.text ++ i.back

theorem not_mem_written (i : Item) {c : Char} (hreserved : isReserved c = true)
    (hblank : isBlank c = false) : c ∉ i.written := by
  simp only [written, List.mem_append, not_or]
  refine ⟨⟨fun h => ?_, fun h => ?_⟩, fun h => ?_⟩
  · cases hblank.symm.trans (i.front_blank c h)
  · cases hreserved.symm.trans (i.isPlain c h)
  · cases hblank.symm.trans (i.back_blank c h)

theorem trimChars_written (i : Item) : trimChars i.written = i.text :=
  Text.trimChars_eq i.front_blank i.back_blank i.ne_nil i.isTrimmed

theorem unquoted_text (i : Item) : unquoted i.text = i.text := by
  refine Text.dropWhile_ends_eq_self fun c hc => ?_
  have hreserved := i.isPlain c hc
  rw [isReserved, Bool.or_eq_false_iff] at hreserved
  exact hreserved.2

theorem written_noDots (i : Item) : ¬ ['.', '.'] <:+: i.written := by
  have hfront : '.' ∉ i.front := fun h => absurd (i.front_blank '.' h) (by decide)
  have hback : '.' ∉ i.back := fun h => absurd (i.back_blank '.' h) (by decide)
  exact not_infix_dots_around hfront hback i.noDots

end Item

/-- What a placeholder has. -/
inductive Slot where
  /-- The integers from one to another. -/
  | range (first last : Int64) (le : first ≤ last)
  /-- At least one value. -/
  | list (items : List Item) (ne_nil : items ≠ [])

namespace Slot

/-- The text between the braces. -/
def body : Slot → List Char
  | .range first last _ =>
      (toString first.toInt).toList ++ ['.', '.'] ++ (toString last.toInt).toList
  | .list items _ => '[' :: [','].intercalate (items.map Item.written) ++ [']']

/-- The values that may be taken, in order: the integers from the first to the last, or the values
of the list. -/
def values : Slot → List (List Char)
  | .range first last _ =>
      (List.range (last.toInt - first.toInt).toNat.succ).map fun (i : Nat) =>
        (toString (first.toInt + i)).toList
  | .list items _ => items.map Item.text

/-- Between braces are none. -/
theorem not_mem_body (s : Slot) {c : Char} (hc : c = '\x7b' ∨ c = '\x7d') : c ∉ s.body := by
  cases s with
  | range first last h =>
      have hnot (n : Int) : c ∉ (toString n).toList := by
        rw [Text.toList_toString]
        rcases hc with rfl | rfl <;> exact Text.not_mem_numeral (by decide) (by decide)
      have hdots : c ∉ ['.', '.'] := by rcases hc with rfl | rfl <;> decide
      exact List.not_mem_append (List.not_mem_append (hnot _) hdots) (hnot _)
  | list items h =>
      have hinside : c ∉ [','].intercalate (items.map Item.written) := by
        refine intercalate_induction (P := fun cs => c ∉ cs) List.not_mem_nil
          (fun a b ha hb => ?_) fun w hw => ?_
        · rcases hc with rfl | rfl <;> simp [ha, hb]
        · obtain ⟨i, -, rfl⟩ := List.mem_map.1 hw
          rcases hc with rfl | rfl <;> exact i.not_mem_written (by decide) (by decide)
      rcases hc with rfl | rfl <;> simp [body, hinside]

/-! ### Reading a placeholder -/

theorem readInt_toString (n : Int64) : readInt (toString n.toInt).toList = .ok n.toInt := by
  rw [Text.toList_toString, readInt, Text.trimChars_eq_self fun _ => Text.isBlank_of_mem_numeral,
    Text.readInt64_numeral]

theorem choices_range (segment : String) (first last : Int64) (h : first ≤ last) :
    choices segment (range first last h).body = .ok (range first last h).values := by
  have hle : first.toInt ≤ last.toInt := Int64.le_iff_toInt_le.1 h
  have hplain : ∀ c ∈ (range first last h).body, isBlank c = false := by
    intro c hc
    simp only [body, Text.toList_toString, List.mem_append] at hc
    rcases hc with (hc | hc) | hc
    · exact Text.isBlank_of_mem_numeral hc
    · rw [List.eq_of_mem_replicate (n := 2) hc]
      decide
    · exact Text.isBlank_of_mem_numeral hc
  have hdots : '.' ∉ (toString first.toInt).toList := by
    rw [Text.toList_toString]
    exact Text.not_mem_numeral (by decide) (by decide)
  rw [choices, Text.trimChars_eq_self hplain, body, splitAtDots?_append hdots]
  simp only
  rw [readInt_toString, readInt_toString]
  simp only [bind, Except.bind]
  have hcount : (last.toInt - first.toInt + 1).toNat = (last.toInt - first.toInt).toNat.succ := by
    omega
  rw [if_neg (by omega), integers, hcount, List.map_map]
  rfl

/-- A list is not taken for a range. -/
theorem splitAtDots?_body_list (items : List Item) (h : items ≠ []) :
    splitAtDots? (list items h).body = none := by
  have hinside : ¬ ['.', '.'] <:+: [','].intercalate (items.map Item.written) := by
    refine intercalate_induction (P := fun cs => ¬ ['.', '.'] <:+: cs)
      (not_infix_dots List.not_mem_nil) (fun a b ha hb => ?_) fun w hw => ?_
    · exact (infix_dots_append_cons (by decide)).not.2 (not_or.2 ⟨ha, hb⟩)
    · obtain ⟨i, -, rfl⟩ := List.mem_map.1 hw
      exact i.written_noDots
  have hopen : '.' ∉ ['['] := by decide
  have hclose : '.' ∉ [']'] := by decide
  exact splitAtDots?_eq_none_iff.2 (not_infix_dots_around hopen hclose hinside)

/-- Values with commas between them are read one by one, and none of them is left out. -/
theorem read_items {items : List Item} (h : items ≠ []) :
    ((([','].intercalate (items.map Item.written)).splitOn ',').map fun v =>
        unquoted (trimChars v)).filter (fun v => !v.isEmpty) = items.map Item.text := by
  have hsplit : ([','].intercalate (items.map Item.written)).splitOn ',' =
      items.map Item.written := by
    refine List.splitOn_intercalate ',' (fun w hw => ?_) (by simpa using h)
    obtain ⟨i, -, rfl⟩ := List.mem_map.1 hw
    exact i.not_mem_written (by decide) (by decide)
  have hread : (items.map Item.written).map (fun v => unquoted (trimChars v)) =
      items.map Item.text := by
    rw [List.map_map]
    refine List.map_congr_left fun i _ => ?_
    rw [Function.comp_apply, i.trimChars_written, i.unquoted_text]
  rw [hsplit, hread, List.filter_eq_self]
  intro v hv
  obtain ⟨i, -, rfl⟩ := List.mem_map.1 hv
  simpa using i.ne_nil

theorem choices_list (segment : String) (items : List Item) (h : items ≠ []) :
    choices segment (list items h).body = .ok (list items h).values := by
  have htrimmed : trimChars (list items h).body = (list items h).body := by
    refine Text.trimChars_of_isTrimmed (by simp [body]) ⟨?_, ?_⟩
    · rintro _ ⟨⟩
      decide
    · rw [body, List.getLast?_concat]
      rintro _ ⟨⟩
      decide
  have hinside : dropLast ']' (dropFirst '[' (list items h).body) =
      [','].intercalate (items.map Item.written) := by
    simp [body, dropFirst, dropLast]
  rw [choices, htrimmed, splitAtDots?_body_list]
  simp only
  rw [hinside, read_items h, if_neg (by simpa using h)]
  rfl

/-- **The values of a placeholder are read off its text.** -/
theorem choices_body (segment : String) (s : Slot) : choices segment s.body = .ok s.values := by
  cases s with
  | range first last h => exact choices_range segment first last h
  | list items h => exact choices_list segment items h

end Slot

end Inline

end ShardedSql
