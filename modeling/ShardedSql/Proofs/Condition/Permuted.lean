/-
**The conjuncts of a predicate may be gathered in any order.**

Gathering goes through the conjuncts from left to right: it narrows what is known of a column,
notes when a constraint has become empty, and marks columns as unusable.  What is left differs with
the order, but only in what routing does not look at.  To see this a conjunct is taken apart into
clues, each of which changes what is gathered in one place.  Two clues that follow one another may
be swapped, as constraints may be intersected in any order and an empty one stays empty, and so
clues may be permuted.

Main definitions:

* `ShardedSql.ColumnConstraint.knownIn` — what is known of a column;
* `ShardedSql.Condition.Alike` — **conditions that say alike of every column**;
* `ShardedSql.Condition.Clue` — what is taken from a conjunct for one table;
* `ShardedSql.Condition.Gathered.Alike` — what is gathered is alike;
* `ShardedSql.Condition.SaysAs` — two conjuncts say the same, wherever they stand;
* `ShardedSql.Condition.Reordered` — **the conjuncts of two predicates say the same, in some
  order**.

Main results:

* `ShardedSql.Condition.Gathered.known_add` — how a clue changes what is known;
* `ShardedSql.Condition.Gathered.Alike.swap` — two clues may be swapped;
* `ShardedSql.Condition.Gathered.Alike.foldl_perm` — and so any number of them;
* `ShardedSql.Condition.ofWhere_alike` — **predicates whose conjuncts say the same in another order
  have conditions that are alike**.
-/

import ShardedSql.Proofs.Condition
import ShardedSql.Proofs.Constraint

set_option relaxedAutoImplicit false
set_option autoImplicit false

namespace ShardedSql

/-! ### Columns -/

/-- Two names of columns with their tables stand for the same column. -/
def sameColumn (table column table' column' : String) : Bool :=
  Text.sameName table table' && Text.sameName column column'

theorem sameColumn_iff {t c t' c' : String} :
    sameColumn t c t' c' = true ↔ Text.sameName t t' = true ∧ Text.sameName c c' = true :=
  Bool.and_eq_true_iff

theorem sameColumn_comm (t c t' c' : String) : sameColumn t c t' c' = sameColumn t' c' t c := by
  rw [sameColumn, sameColumn, Text.sameName_comm t, Text.sameName_comm c]

theorem sameColumn_trans {t c t' c' t'' c'' : String} (h : sameColumn t c t' c' = true)
    (h' : sameColumn t' c' t'' c'' = true) : sameColumn t c t'' c'' = true := by
  rw [sameColumn_iff] at *
  exact ⟨Text.sameName_trans h.1 h'.1, Text.sameName_trans h.2 h'.2⟩

/-- The same column is the same as others. -/
theorem sameColumn_congr {t c t' c' : String} (h : sameColumn t c t' c' = true)
    (t'' c'' : String) : sameColumn t c t'' c'' = sameColumn t' c' t'' c'' := by
  rw [Bool.eq_iff_iff]
  exact ⟨fun hl => sameColumn_trans (sameColumn_comm t c t' c' ▸ h) hl, sameColumn_trans h⟩

namespace ColumnConstraint

theorem isAbout_eq (v : ColumnConstraint) (t c : String) :
    v.isAbout t c = sameColumn v.table v.column t c := rfl

/-- A constraint about a column is about every name of it. -/
theorem isAbout_congr {t c t' c' : String} (h : sameColumn t c t' c' = true)
    (v : ColumnConstraint) : v.isAbout t c = v.isAbout t' c' := by
  rw [isAbout_eq, isAbout_eq, sameColumn_comm, sameColumn_comm v.table, sameColumn_congr h]

/-- A constraint about a column is about no other one. -/
theorem isAbout_eq_false {t c t' c' : String} (h : sameColumn t c t' c' = false)
    {v : ColumnConstraint} (hv : v.isAbout t c = true) : v.isAbout t' c' = false := by
  rw [Bool.eq_false_iff]
  intro hv'
  rw [isAbout_eq, sameColumn_comm] at hv
  rw [sameColumn_trans hv hv'] at h
  cases h

/-- What some constraints say of a column: the first of them that is about it. -/
def knownIn (values : List ColumnConstraint) (table column : String) : Option Constraint :=
  (values.find? fun v => v.isAbout table column).map (·.constraint)

variable {values : List ColumnConstraint} {v : ColumnConstraint} {t c t' c' : String}

theorem knownIn_cons_of_isAbout (h : v.isAbout t c = true) :
    knownIn (v :: values) t c = some v.constraint := by
  rw [knownIn, List.find?_cons, h]
  rfl

theorem knownIn_cons_of_not_isAbout (h : v.isAbout t c = false) :
    knownIn (v :: values) t c = knownIn values t c := by
  rw [knownIn, List.find?_cons, h]
  rfl

theorem knownIn_congr (h : sameColumn t c t' c' = true) :
    knownIn values t c = knownIn values t' c' := by
  rw [knownIn, knownIn]
  exact congrArg _ (congrArg (List.find? · values) (funext fun v => isAbout_congr h v))

/-- What is added at the end is known of its column if nothing else is. -/
theorem knownIn_append (values : List ColumnConstraint) (v : ColumnConstraint) (t c : String) :
    knownIn (values ++ [v]) t c =
      (knownIn values t c).or (if v.isAbout t c then some v.constraint else none) := by
  rw [knownIn, List.find?_append, knownIn]
  cases values.find? fun v => v.isAbout t c with
  | some w => rfl
  | none =>
      rw [List.find?_singleton]
      cases v.isAbout t c <;> rfl

/-- Of constraints that are kept or dropped together for a column, all is known of it or nothing. -/
theorem knownIn_filter {keeps : ColumnConstraint → Bool} {b : Bool}
    (h : ∀ v ∈ values, v.isAbout t c = true → keeps v = b) :
    knownIn (values.filter keeps) t c = if b then knownIn values t c else none := by
  induction values with
  | nil => exact (ite_self _).symm
  | cons v rest ih =>
      obtain ⟨hv, hrest⟩ := List.forall_mem_cons.1 h
      cases habout : v.isAbout t c with
      | true =>
          have hb := hv habout
          cases b with
          | true =>
              rw [List.filter_cons_of_pos hb, knownIn_cons_of_isAbout habout,
                knownIn_cons_of_isAbout habout]
              rfl
          | false =>
              rw [List.filter_cons_of_neg (by simp [hb]), ih hrest]
              rfl
      | false =>
          rw [knownIn_cons_of_not_isAbout habout, ← ih hrest]
          cases hkeep : keeps v with
          | true => rw [List.filter_cons_of_pos hkeep, knownIn_cons_of_not_isAbout habout]
          | false => rw [List.filter_cons_of_neg (by simp [hkeep])]

/-- Nothing is known of any column where there are no constraints. -/
theorem isEmpty_iff_knownIn : values.isEmpty = true ↔ ∀ t c, knownIn values t c = none := by
  cases values with
  | nil => exact ⟨fun _ _ _ => rfl, fun _ => rfl⟩
  | cons v rest =>
      refine ⟨fun h => (by cases h), fun h => ?_⟩
      have hself : v.isAbout v.table v.column = true := by simp [isAbout]
      have hnone := h v.table v.column
      rw [knownIn_cons_of_isAbout hself] at hnone
      cases hnone

end ColumnConstraint

namespace Condition

open ColumnConstraint (knownIn)

/-! ### Narrowing -/

/-- What is known of a column when something more is. -/
def narrowed (known : Option Constraint) (c : Constraint) : Constraint :=
  match known with
  | some d => d.intersect c
  | none => c

namespace Gathered

/-- Without a constraint on a column there is none to narrow. -/
theorem narrow_of_knownIn_none {values : List ColumnConstraint} {t c : String}
    (h : knownIn values t c = none) (k : Constraint) (markers : List Nat) :
    narrow t c k markers values = none := by
  induction values with
  | nil => rfl
  | cons v rest ih =>
      cases hv : v.isAbout t c with
      | true =>
          rw [ColumnConstraint.knownIn_cons_of_isAbout hv] at h
          cases h
      | false =>
          rw [ColumnConstraint.knownIn_cons_of_not_isAbout hv] at h
          rw [narrow, hv, if_neg Bool.false_ne_true, ih h]
          rfl

/-- **The constraint on a column is narrowed**, and what is known of other columns stays. -/
theorem narrow_of_knownIn_some {values : List ColumnConstraint} {t c : String} {d : Constraint}
    (h : knownIn values t c = some d) (k : Constraint) (markers : List Nat) :
    ∃ narrowed, narrow t c k markers values = some (narrowed, d.intersect k) ∧
      ∀ t' c', knownIn narrowed t' c' =
        if sameColumn t c t' c' then some (d.intersect k) else knownIn values t' c' := by
  induction values with
  | nil => cases h
  | cons v rest ih =>
      cases hv : v.isAbout t c with
      | true =>
          rw [ColumnConstraint.knownIn_cons_of_isAbout hv] at h
          cases h
          refine ⟨_, by rw [narrow, hv, if_pos rfl], fun t' c' => ?_⟩
          cases hsame : sameColumn t c t' c' with
          | true =>
              rw [if_pos rfl, ColumnConstraint.knownIn_cons_of_isAbout]
              exact (ColumnConstraint.isAbout_congr hsame v).symm.trans hv
          | false =>
              have hother := ColumnConstraint.isAbout_eq_false hsame hv
              rw [if_neg Bool.false_ne_true, ColumnConstraint.knownIn_cons_of_not_isAbout hother]
              exact ColumnConstraint.knownIn_cons_of_not_isAbout hother
      | false =>
          rw [ColumnConstraint.knownIn_cons_of_not_isAbout hv] at h
          obtain ⟨narrowed, hnarrow, hknown⟩ := ih h
          refine ⟨v :: narrowed, by rw [narrow, hv, if_neg Bool.false_ne_true, hnarrow]; rfl,
            fun t' c' => ?_⟩
          cases hv' : v.isAbout t' c' with
          | true =>
              have hother : sameColumn t c t' c' = false := by
                rw [sameColumn_comm]
                refine Bool.eq_false_iff.2 fun hsame => ?_
                rw [ColumnConstraint.isAbout_congr (sameColumn_comm t' c' t c ▸ hsame), hv'] at hv
                cases hv
              rw [hother, if_neg Bool.false_ne_true, ColumnConstraint.knownIn_cons_of_isAbout hv',
                ColumnConstraint.knownIn_cons_of_isAbout hv']
          | false =>
              rw [ColumnConstraint.knownIn_cons_of_not_isAbout hv',
                ColumnConstraint.knownIn_cons_of_not_isAbout hv', hknown]

/-! ### Clues -/

/-- What is known of a column. -/
def known (g : Gathered) (table column : String) : Option Constraint :=
  knownIn g.values table column

/-- **What is added about a column narrows what is known of it**, and of no other column. -/
theorem known_add (g : Gathered) (t c : String) (k : Constraint) (markers : List Nat)
    (t' c' : String) :
    (g.add t c k markers).known t' c' =
      if sameColumn t c t' c' then some (narrowed (g.known t c) k) else g.known t' c' := by
  unfold Gathered.add
  cases hknown : g.known t c with
  | none =>
      rw [narrow_of_knownIn_none hknown]
      refine (ColumnConstraint.knownIn_append ..).trans ?_
      rw [ColumnConstraint.isAbout_eq]
      cases hsame : sameColumn t c t' c' with
      | true =>
          have hnone : knownIn g.values t' c' = none :=
            (ColumnConstraint.knownIn_congr hsame).symm.trans hknown
          rw [hnone]
          rfl
      | false => exact Option.or_none
  | some d =>
      obtain ⟨values, hnarrow, hspec⟩ := narrow_of_knownIn_some hknown k markers
      rw [hnarrow]
      exact hspec t' c'

/-- An empty constraint is noted. -/
theorem alwaysFalse_add (g : Gathered) (t c : String) (k : Constraint) (markers : List Nat) :
    (g.add t c k markers).alwaysFalse =
      (g.alwaysFalse || (narrowed (g.known t c) k).isEmpty) := by
  unfold Gathered.add
  cases hknown : g.known t c with
  | none => rw [narrow_of_knownIn_none hknown]; rfl
  | some d =>
      obtain ⟨values, hnarrow, -⟩ := narrow_of_knownIn_some hknown k markers
      rw [hnarrow]
      rfl

theorem unusable_add (g : Gathered) (t c : String) (k : Constraint) (markers : List Nat) :
    (g.add t c k markers).unusable = g.unusable := by
  unfold Gathered.add
  split <;> rfl

/-- Marking a column as unusable leaves alone what adding changes. -/
theorem add_exclude (g : Gathered) (t c t' c' : String) (k : Constraint) (markers : List Nat) :
    (g.exclude t c).add t' c' k markers = (g.add t' c' k markers).exclude t c := by
  unfold Gathered.add Gathered.exclude
  simp only
  split <;> rfl

end Gathered

/-- What is taken from a conjunct for one table. -/
inductive Clue where
  /-- A column cannot be used. -/
  | unusable (table column : String)
  /-- A column is constrained. -/
  | constrained (table column : String) (constraint : Constraint) (markers : List Nat)

namespace Clue

/-- What is gathered with one more clue. -/
def apply (g : Gathered) : Clue → Gathered
  | .unusable table column => g.exclude table column
  | .constrained table column c markers => g.add table column c markers

/-- The clue is about integers. -/
def IsOnInts : Clue → Prop
  | .unusable _ _ => True
  | .constrained _ _ c _ => c.IsOnInts

/-- Two clues are the same but for the parameters that they come from. -/
inductive Same : Clue → Clue → Prop where
  | unusable (table column : String) : Same (.unusable table column) (.unusable table column)
  | constrained (table column : String) (c : Constraint) (markers markers' : List Nat) :
      Same (.constrained table column c markers) (.constrained table column c markers')

theorem Same.refl (x : Clue) : x.Same x := by
  cases x with
  | unusable t c => exact .unusable t c
  | constrained t c k markers => exact .constrained t c k markers markers

/-- What is taken from a conjunct about a column for one table. -/
def ofConjunct? (parameters : List Value) (p : Predicate) (column table : String) : Option Clue :=
  if isNegated p then some (.unusable table column)
  else (constraintOf? parameters p).map fun k => .constrained table column k.1 k.2

/-- What is taken from a conjunct. -/
def ofPredicate (rule : Rule) (tables : List TableRef) (parameters : List Value) (p : Predicate) :
    List Clue :=
  match p.column? with
  | none => []
  | some column =>
      (shardedTablesOf rule tables column).filterMap (ofConjunct? parameters p column.name)

variable {rule : Rule} {tables : List TableRef} {parameters : List Value}

/-- A conjunct is added clue by clue. -/
theorem foldl_ofPredicate (g : Gathered) (p : Predicate) :
    (ofPredicate rule tables parameters p).foldl apply g =
      Gathered.addPredicate rule tables parameters g p := by
  unfold ofPredicate Gathered.addPredicate
  cases p.column? with
  | none => rfl
  | some column =>
      simp only [List.foldl_filterMap]
      refine congrArg (List.foldl · g _) (funext fun g => funext fun table => ?_)
      rw [ofConjunct?, Gathered.addConjunct]
      cases isNegated p with
      | true => rfl
      | false => cases constraintOf? parameters p <;> rfl

/-- **The condition of a predicate is that of the clues of its conjuncts.** -/
theorem conditions_foldl (p : Predicate) :
    ((p.conjuncts.flatMap (ofPredicate rule tables parameters)).foldl apply {}).conditions =
      ofWhere rule tables (some p) parameters := by
  rw [ofWhere, List.foldl_flatMap]
  congr 2
  funext g q
  exact foldl_ofPredicate g q

end Clue

/-! ### What is known alike -/

/-- What is known of two columns is alike: nothing, or constraints that are alike. -/
inductive KnownAlike : Option Constraint → Option Constraint → Prop where
  | unknown : KnownAlike none none
  | known {c d : Constraint} (h : c.Alike d) : KnownAlike (some c) (some d)

namespace KnownAlike

variable {a b k : Option Constraint} {c d : Constraint}

theorem symm (h : KnownAlike a b) : KnownAlike b a := by
  cases h with
  | unknown => exact .unknown
  | known h => exact .known h.symm

theorem trans (h : KnownAlike a b) (h' : KnownAlike b k) : KnownAlike a k := by
  cases h with
  | unknown => exact h'
  | known h =>
      cases h' with
      | known h' => exact .known (h.trans h')

theorem eq_none_iff (h : KnownAlike a b) : a = none ↔ b = none := by
  cases h with
  | unknown => exact Iff.rfl
  | known h => exact ⟨fun h => (by cases h), fun h => (by cases h)⟩

/-- What is alike stays so when it is narrowed alike. -/
theorem narrowed (h : KnownAlike a b) (hc : c.Alike d) :
    (narrowed a c).Alike (Condition.narrowed b d) := by
  cases h with
  | unknown => exact hc
  | known h => exact h.intersect hc

/-- What is known may be narrowed by two constraints in any order. -/
theorem narrowed_swap (h : KnownAlike a a) (hc : c.IsOnInts) (hd : d.IsOnInts) :
    (Condition.narrowed (some (Condition.narrowed a c)) d).Alike
      (Condition.narrowed (some (Condition.narrowed a d)) c) := by
  cases h with
  | unknown => exact Constraint.alike_intersect_comm hc hd
  | known h => exact Constraint.alike_intersect_swap h.left hc hd

/-- What is found empty is so when it is narrowed further. -/
theorem isEmpty_narrowed (h : KnownAlike a a) (hc : c.IsOnInts) (hd : d.IsOnInts) :
    ((Condition.narrowed a c).isEmpty ||
      (Condition.narrowed (some (Condition.narrowed a c)) d).isEmpty) =
        (Condition.narrowed (some (Condition.narrowed a c)) d).isEmpty := by
  have hints := (h.narrowed (Constraint.alike_self.2 hc)).left
  cases hempty : (Condition.narrowed a c).isEmpty with
  | false => rfl
  | true =>
      exact (Constraint.isEmpty_intersect hints hd hempty).symm

end KnownAlike

/-- Conditions that say alike of every column, and that can be met or not alike. -/
structure Alike (c d : Condition) : Prop where
  alwaysFalse : c.alwaysFalse = d.alwaysFalse
  known : ∀ table column, KnownAlike (knownIn c.values table column) (knownIn d.values table column)

/-! ### What is gathered alike -/

namespace Gathered

/-- What is gathered is alike: it can be met or not, the same columns are unusable, and alike is
known of every column. -/
structure Alike (g h : Gathered) : Prop where
  alwaysFalse : g.alwaysFalse = h.alwaysFalse
  unusable : ∀ u, u ∈ g.unusable ↔ u ∈ h.unusable
  known : ∀ table column, KnownAlike (g.known table column) (h.known table column)

namespace Alike

variable {g h k : Gathered} {x y : Clue}

theorem symm (hgh : g.Alike h) : h.Alike g :=
  ⟨hgh.alwaysFalse.symm, fun u => (hgh.unusable u).symm, fun t c => (hgh.known t c).symm⟩

theorem trans (hgh : g.Alike h) (hhk : h.Alike k) : g.Alike k :=
  ⟨hgh.alwaysFalse.trans hhk.alwaysFalse, fun u => (hgh.unusable u).trans (hhk.unusable u),
    fun t c => (hgh.known t c).trans (hhk.known t c)⟩

theorem empty : Alike {} {} := ⟨rfl, fun _ => Iff.rfl, fun _ _ => .unknown⟩

theorem exclude (hgh : g.Alike h) (t c : String) : (g.exclude t c).Alike (h.exclude t c) where
  alwaysFalse := hgh.alwaysFalse
  unusable u := List.mem_append.trans
    ((or_congr_left (hgh.unusable u)).trans List.mem_append.symm)
  known := hgh.known

/-- What is gathered alike stays so with one more constraint, whatever parameters it comes from. -/
theorem add (hgh : g.Alike h) (t c : String) {d : Constraint} (hd : d.IsOnInts)
    (m m' : List Nat) : (g.add t c d m).Alike (h.add t c d m') := by
  have hnarrowed := (hgh.known t c).narrowed (Constraint.alike_self.2 hd)
  refine ⟨?_, fun u => ?_, fun t' c' => ?_⟩
  · rw [alwaysFalse_add, alwaysFalse_add, hgh.alwaysFalse, hnarrowed.isEmpty_eq]
  · rw [unusable_add, unusable_add]
    exact hgh.unusable u
  · rw [known_add, known_add]
    split
    · exact .known hnarrowed
    · exact hgh.known t' c'

/-- **What is gathered alike stays so with one more clue.** -/
theorem apply (hgh : g.Alike h) (hxy : x.Same y) (hx : x.IsOnInts) :
    (x.apply g).Alike (y.apply h) := by
  cases hxy with
  | unusable t c => exact hgh.exclude t c
  | constrained t c d m m' => exact hgh.add t c hx m m'

/-- Constraints may be added in any order. -/
theorem add_swap (hg : g.Alike g) (t c t' c' : String) {d d' : Constraint} (hd : d.IsOnInts)
    (hd' : d'.IsOnInts) (m m' : List Nat) :
    ((g.add t c d m).add t' c' d' m').Alike ((g.add t' c' d' m').add t c d m) := by
  refine ⟨?_, fun u => ?_, fun t'' c'' => ?_⟩
  · rw [alwaysFalse_add, alwaysFalse_add, alwaysFalse_add, alwaysFalse_add, known_add, known_add,
      sameColumn_comm t' c' t c]
    cases hsame : sameColumn t c t' c' with
    | false => exact Bool.or_right_comm ..
    | true =>
        -- of the same column the second emptiness covers the first
        have hknown : g.known t' c' = g.known t c := (ColumnConstraint.knownIn_congr hsame).symm
        have hself := hg.known t c
        rw [if_pos rfl, if_pos rfl, hknown, Bool.or_assoc, Bool.or_assoc,
          hself.isEmpty_narrowed hd hd', hself.isEmpty_narrowed hd' hd,
          (hself.narrowed_swap hd hd').isEmpty_eq]
  · rw [unusable_add, unusable_add, unusable_add, unusable_add]
  · rw [known_add, known_add, known_add, known_add, known_add, known_add, sameColumn_comm t' c' t c]
    cases hsame : sameColumn t c t' c' with
    | true =>
        have hknown : g.known t' c' = g.known t c := (ColumnConstraint.knownIn_congr hsame).symm
        rw [if_pos rfl, if_pos rfl, hknown, sameColumn_congr hsame]
        split
        · exact .known ((hg.known t c).narrowed_swap hd hd')
        · exact hg.known t'' c''
    | false =>
        rw [if_neg Bool.false_ne_true, if_neg Bool.false_ne_true]
        cases hsame' : sameColumn t' c' t'' c'' with
        | false =>
            rw [if_neg Bool.false_ne_true, if_neg Bool.false_ne_true]
            split
            · exact .known ((hg.known t c).narrowed (Constraint.alike_self.2 hd))
            · exact hg.known t'' c''
        | true =>
            have hother : sameColumn t c t'' c'' = false := by
              rw [sameColumn_comm, ← sameColumn_congr hsame', sameColumn_comm, hsame]
            rw [hother]
            exact .known ((hg.known t' c').narrowed (Constraint.alike_self.2 hd'))

/-- **Two clues may be swapped.** -/
theorem swap (hg : g.Alike g) (hx : x.IsOnInts) (hy : y.IsOnInts) :
    (y.apply (x.apply g)).Alike (x.apply (y.apply g)) := by
  cases x with
  | unusable t c =>
      cases y with
      | unusable t' c' =>
          refine ⟨hg.alwaysFalse, fun u => ?_, hg.known⟩
          simp only [Clue.apply, Gathered.exclude, List.mem_append, or_assoc]
          exact or_congr_right or_comm
      | constrained t' c' d' m' =>
          have hswap : (Clue.constrained t' c' d' m').apply ((Clue.unusable t c).apply g) =
              (Clue.unusable t c).apply ((Clue.constrained t' c' d' m').apply g) :=
            add_exclude g t c t' c' d' m'
          rw [hswap]
          exact (hg.apply (.refl _) hy).exclude t c
  | constrained t c d m =>
      cases y with
      | unusable t' c' =>
          have hswap : (Clue.constrained t c d m).apply ((Clue.unusable t' c').apply g) =
              (Clue.unusable t' c').apply ((Clue.constrained t c d m).apply g) :=
            add_exclude g t' c' t c d m
          rw [hswap]
          exact (hg.apply (.refl _) hx).exclude t' c'
      | constrained t' c' d' m' => exact hg.add_swap t c t' c' hx hy m m'

/-- What is gathered alike stays so with more clues. -/
theorem foldl {xs ys : List Clue} (hsame : List.Forall₂ Clue.Same xs ys)
    (hxs : ∀ x ∈ xs, x.IsOnInts) (hgh : g.Alike h) :
    (xs.foldl Clue.apply g).Alike (ys.foldl Clue.apply h) := by
  induction hsame generalizing g h with
  | nil => exact hgh
  | cons hxy _ ih =>
      obtain ⟨hx, hxs⟩ := List.forall_mem_cons.1 hxs
      exact ih hxs (hgh.apply hxy hx)

/-- **Clues may be permuted.** -/
theorem foldl_perm {xs ys : List Clue} (hperm : xs.Perm ys) (hxs : ∀ x ∈ xs, x.IsOnInts)
    (hgh : g.Alike h) : (xs.foldl Clue.apply g).Alike (ys.foldl Clue.apply h) := by
  induction hperm generalizing g h with
  | nil => exact hgh
  | cons x _ ih =>
      obtain ⟨hx, hxs⟩ := List.forall_mem_cons.1 hxs
      exact ih hxs (hgh.apply (.refl x) hx)
  | swap x y rest =>
      obtain ⟨hy, hxs⟩ := List.forall_mem_cons.1 hxs
      obtain ⟨hx, hxs⟩ := List.forall_mem_cons.1 hxs
      have hswap := (hgh.trans hgh.symm).swap hy hx
      have hrest : List.Forall₂ Clue.Same rest rest := List.forall₂_same.2 fun z _ => .refl z
      simp only [List.foldl_cons]
      exact foldl hrest hxs (hswap.trans ((hgh.apply (.refl x) hx).apply (.refl y) hy))
  | trans hleft _ ihleft ihright =>
      exact (ihleft hxs (hgh.trans hgh.symm)).trans
        (ihright (fun x hx => hxs x (hleft.mem_iff.2 hx)) hgh)

end Alike

/-- A column is unusable. -/
def bars (g : Gathered) (table column : String) : Bool :=
  g.unusable.any fun u => sameColumn table column u.1 u.2

theorem excludes_eq_bars {g : Gathered} {v : ColumnConstraint} {t c : String}
    (h : v.isAbout t c = true) : g.excludes v = g.bars t c := by
  unfold excludes bars
  refine congrArg _ (funext fun u => ?_)
  rw [ColumnConstraint.isAbout_eq] at h ⊢
  exact sameColumn_congr h u.1 u.2

/-- What is known of the columns that are not unusable. -/
theorem knownIn_usable (g : Gathered) (t c : String) :
    knownIn (g.values.filter fun v => !g.excludes v) t c =
      if !g.bars t c then g.known t c else none :=
  ColumnConstraint.knownIn_filter fun _ _ h => congrArg (!·) (excludes_eq_bars h)

/-- **What is gathered alike gives conditions that are alike.** -/
theorem Alike.conditions {g h : Gathered} (hgh : g.Alike h) :
    List.Forall₂ Condition.Alike g.conditions h.conditions := by
  have hbars : ∀ t c, g.bars t c = h.bars t c := fun t c => by
    rw [Bool.eq_iff_iff, bars, bars, List.any_eq_true, List.any_eq_true]
    exact exists_congr fun u => and_congr_left' (hgh.unusable u)
  have hknown : ∀ t c, KnownAlike (knownIn (g.values.filter fun v => !g.excludes v) t c)
      (knownIn (h.values.filter fun v => !h.excludes v) t c) := fun t c => by
    rw [knownIn_usable, knownIn_usable, hbars]
    split
    · exact hgh.known t c
    · exact .unknown
  have hempty : (g.values.filter fun v => !g.excludes v).isEmpty =
      (h.values.filter fun v => !h.excludes v).isEmpty := by
    rw [Bool.eq_iff_iff, ColumnConstraint.isEmpty_iff_knownIn, ColumnConstraint.isEmpty_iff_knownIn]
    exact forall_congr' fun t => forall_congr' fun c => (hknown t c).eq_none_iff
  simp only [Gathered.conditions, hgh.alwaysFalse, hempty]
  split
  · exact .cons ⟨rfl, fun _ _ => .unknown⟩ .nil
  · split
    · exact .nil
    · exact .cons ⟨rfl, hknown⟩ .nil

end Gathered

/-! ### Predicates -/

variable {rule : Rule} {tables : List TableRef} {parameters : List Value}

/-- What is taken from a conjunct on integers is a constraint on integers. -/
theorem isOnInts_of_constraintOf? {p : Predicate} {c : Constraint} {markers : List Nat}
    (hints : ∀ e ∈ p.operands, ∀ v ∈ e.resolve parameters, ∃ n, v = .int n)
    (hc : constraintOf? parameters p = some (c, markers)) : c.IsOnInts := by
  cases p with
  | compare column op right =>
      obtain ⟨v, hv, hc⟩ := Option.map_eq_some_iff.1 hc
      obtain ⟨m, rfl⟩ := hints right (List.mem_singleton.2 rfl) v hv
      rw [Prod.mk.injEq] at hc
      rw [← hc.1]
      split
      · exact fun v hv => ⟨m, List.mem_singleton.1 hv⟩
      · exact isInt_rangeOf op m
  | oneOf column list negated =>
      obtain ⟨vs, hvs, hc⟩ := Option.map_eq_some_iff.1 hc
      cases hc
      exact exists_int_of_resolveAll? hints hvs
  | between column low high negated =>
      simp only [constraintOf?] at hc
      split at hc
      · rename_i v w hv hw
        cases hc
        obtain ⟨a, rfl⟩ := hints low (by simp [Predicate.operands]) v hv
        obtain ⟨b, rfl⟩ := hints high (by simp [Predicate.operands]) w hw
        exact Range.isInt_closed a b
      · cases hc
  | and parts => cases hc
  | or parts => cases hc
  | other => cases hc

/-- The clues of a predicate on integers are about integers. -/
theorem Clue.isOnInts_of_conjunct {p q : Predicate} (hq : q ∈ p.conjuncts)
    (hints : ∀ t ∈ tables, p.IsOnInts rule t parameters) :
    ∀ x ∈ Clue.ofPredicate rule tables parameters q, x.IsOnInts := by
  intro x hx
  unfold Clue.ofPredicate at hx
  cases hcolumn : q.column? with
  | none =>
      rw [hcolumn] at hx
      cases hx
  | some column =>
      rw [hcolumn] at hx
      obtain ⟨name, hname, hx⟩ := List.mem_filterMap.1 hx
      obtain ⟨t, ht, hspread, -⟩ := exists_spreadBy hname
      have hoperands := hints t ht q (Predicate.mem_leaves_of_column hq hcolumn) column hcolumn
        hspread
      unfold Clue.ofConjunct? at hx
      split at hx
      · cases hx
        trivial
      · obtain ⟨⟨c, markers⟩, hc, hx⟩ := Option.map_eq_some_iff.1 hx
        cases hx
        exact isOnInts_of_constraintOf? hoperands hc

/-- Two conjuncts say the same: of columns that are named alike, and of the same values, wherever
they stand in the text of a statement and in its parameters. -/
structure SaysAs (parameters parameters' : List Value) (p q : Predicate) : Prop where
  column : p.column?.map (fun c => (c.owner, c.name)) = q.column?.map fun c => (c.owner, c.name)
  negated : isNegated p = isNegated q
  constraint : (constraintOf? parameters p).map Prod.fst =
    (constraintOf? parameters' q).map Prod.fst

theorem SaysAs.refl (parameters : List Value) (p : Predicate) : SaysAs parameters parameters p p :=
  ⟨rfl, rfl, rfl⟩

/-- Columns that are named alike may belong to the same tables. -/
theorem shardedTablesOf_congr {a b : ColumnRef} (howner : a.owner = b.owner)
    (hname : a.name = b.name) : shardedTablesOf rule tables a = shardedTablesOf rule tables b := by
  rw [shardedTablesOf, shardedTablesOf, tablesOf, tablesOf, howner, hname]

theorem Clue.rel_ofConjunct? {parameters' : List Value} {p q : Predicate}
    (h : SaysAs parameters parameters' p q) (column table : String) :
    Option.Rel Same (ofConjunct? parameters p column table)
      (ofConjunct? parameters' q column table) := by
  have hconstraint := h.constraint
  unfold ofConjunct?
  rw [h.negated]
  split
  · exact .some (.unusable table column)
  · generalize constraintOf? parameters p = k at hconstraint ⊢
    generalize constraintOf? parameters' q = k' at hconstraint ⊢
    cases k with
    | none =>
        cases Option.map_eq_none_iff.1 hconstraint.symm
        exact .none
    | some k =>
        obtain ⟨k', rfl, hk⟩ := Option.map_eq_some_iff.1 hconstraint.symm
        simp only [Option.map_some, hk]
        exact .some (.constrained ..)

/-- The clues of conjuncts that say the same are the same. -/
theorem Clue.same_of_saysAs {parameters' : List Value} {p q : Predicate}
    (h : SaysAs parameters parameters' p q) :
    List.Forall₂ Same (ofPredicate rule tables parameters p)
      (ofPredicate rule tables parameters' q) := by
  have hcolumn := h.column
  unfold ofPredicate
  cases hp : p.column? with
  | none =>
      cases hq : q.column? with
      | none => exact .nil
      | some b =>
          rw [hp, hq] at hcolumn
          cases hcolumn
  | some a =>
      cases hq : q.column? with
      | none =>
          rw [hp, hq] at hcolumn
          cases hcolumn
      | some b =>
          rw [hp, hq, Option.map_some, Option.map_some, Option.some_inj, Prod.mk.injEq] at hcolumn
          obtain ⟨howner, hname⟩ := hcolumn
          simp only
          rw [shardedTablesOf_congr howner hname, hname]
          generalize shardedTablesOf rule tables b = names
          -- the same is taken from the conjuncts for each table
          induction names with
          | nil => exact .nil
          | cons t names ih =>
              rw [List.filterMap_cons, List.filterMap_cons]
              have hclue := rel_ofConjunct? h b.name t
              generalize ofConjunct? parameters p b.name t = x at hclue ⊢
              generalize ofConjunct? parameters' q b.name t = y at hclue ⊢
              cases hclue with
              | none => exact ih
              | some hsame => exact .cons hsame ih

/-- The conjuncts of one predicate say the same as those of another one, in some order. -/
def Reordered (parameters parameters' : List Value) (p q : Predicate) : Prop :=
  ∃ conjuncts, p.conjuncts.Perm conjuncts ∧
    List.Forall₂ (SaysAs parameters parameters') conjuncts q.conjuncts

/-- The same conjuncts may be joined in any order, and however the conjunctions are nested. -/
theorem reordered_of_perm {p q : Predicate} (h : p.conjuncts.Perm q.conjuncts) :
    Reordered parameters parameters p q :=
  ⟨q.conjuncts, h, List.forall₂_same.2 fun c _ => SaysAs.refl parameters c⟩

/-- **Predicates whose conjuncts say the same in another order have conditions that are alike.** -/
theorem ofWhere_alike {parameters' : List Value} {p q : Predicate}
    (h : Reordered parameters parameters' p q)
    (hints : ∀ t ∈ tables, p.IsOnInts rule t parameters) :
    List.Forall₂ Condition.Alike (ofWhere rule tables (some p) parameters)
      (ofWhere rule tables (some q) parameters') := by
  obtain ⟨conjuncts, hperm, hsays⟩ := h
  have hclues : ∀ x ∈ conjuncts.flatMap (Clue.ofPredicate rule tables parameters), x.IsOnInts := by
    intro x hx
    obtain ⟨conjunct, hconjunct, hx⟩ := List.mem_flatMap.1 hx
    exact Clue.isOnInts_of_conjunct (hperm.mem_iff.2 hconjunct) hints x hx
  have hclues' := hperm.flatMap_right (Clue.ofPredicate rule tables parameters)
  rw [← Clue.conditions_foldl p, ← Clue.conditions_foldl q]
  refine Gathered.Alike.conditions (.trans (.foldl_perm hclues'
    (fun x hx => hclues x (hclues'.mem_iff.1 hx)) .empty) (.foldl ?_ hclues .empty))
  exact List.rel_flatMap hsays fun _ _ h => Clue.same_of_saysAs h

end Condition

end ShardedSql
