/-
**Outcomes that follow one another.**

An outcome that is computed in steps is a success exactly when each step is, and it fails with the
fault of the first step that does.  The lemmas here take such computations apart.

Main definitions:

* `ShardedSql.Outcome.Agree` — **two outcomes agree**: both fail, or both succeed with results that
  are related.

Main results:

* `ShardedSql.Outcome.bind_eq_ok`, `ShardedSql.Outcome.bind_eq_error` — one step after another;
* `ShardedSql.Outcome.map_eq_ok`, `ShardedSql.Outcome.note_eq_ok` — what changes no success;
* `ShardedSql.Outcome.mapM_eq_ok` — **a list of outcomes is a success when each of them is**;
* `ShardedSql.Outcome.exists_of_mapM_eq_error` — and it fails as one of them does;
* `ShardedSql.Outcome.forM_eq_ok` — so is a check of all members;
* `ShardedSql.Outcome.foldlM_induction`, `ShardedSql.Outcome.exists_foldlM_eq_ok` — what each step
  of a fold keeps is kept by the fold, which is a success when each step is;
* `ShardedSql.Outcome.map_eq_of_mapM` — outcomes that tell their members tell the list;
* `ShardedSql.Outcome.mapM_bind_eq_ok` — two steps on each member;
* `ShardedSql.Outcome.exists_of_mem_left`, `ShardedSql.Outcome.exists_of_mem_right` — every member
  has its outcome, and every outcome its member;
* `ShardedSql.Outcome.Agree.bind`, `ShardedSql.Outcome.Agree.mapM`,
  `ShardedSql.Outcome.Agree.foldlM` — what is computed from outcomes that agree agrees.
-/

import ShardedSql.Fault
import ShardedSql.Proofs.Lists

set_option relaxedAutoImplicit false
set_option autoImplicit false

namespace ShardedSql.Outcome

variable {α β : Type}

theorem bind_eq_ok {x : Outcome α} {f : α → Outcome β} {b : β} :
    x >>= f = .ok b ↔ ∃ a, x = .ok a ∧ f a = .ok b := by
  cases x <;> simp [bind, Except.bind]

theorem bind_eq_error {x : Outcome α} {f : α → Outcome β} {e : Fault} :
    x >>= f = .error e ↔ x = .error e ∨ ∃ a, x = .ok a ∧ f a = .error e := by
  cases x <;> simp [bind, Except.bind]

theorem map_eq_ok {x : Outcome α} {f : α → β} {b : β} :
    x.map f = .ok b ↔ ∃ a, x = .ok a ∧ f a = b := by
  cases x <;> simp [Except.map]

theorem map_eq_error {x : Outcome α} {f : α → β} {e : Fault} :
    x.map f = .error e ↔ x = .error e := by
  cases x <;> simp [Except.map]

theorem note_eq_ok {x : Outcome α} {key value : String} {a : α} :
    x.note key value = .ok a ↔ x = .ok a := by
  cases x <;> simp

/-! ### Lists -/

theorem mapM_eq_ok {f : α → Outcome β} {as : List α} {bs : List β} :
    as.mapM f = .ok bs ↔ List.Forall₂ (fun a b => f a = .ok b) as bs := by
  induction as generalizing bs with
  | nil =>
      rw [List.mapM_nil, List.forall₂_nil_left_iff]
      exact ⟨fun h => (Except.ok.inj h).symm, fun h => by rw [h]; rfl⟩
  | cons a as ih =>
      rw [List.mapM_cons, List.forall₂_cons_left_iff, bind_eq_ok]
      constructor
      · rintro ⟨b, hb, h⟩
        obtain ⟨rest, hrest, h⟩ := bind_eq_ok.1 h
        exact ⟨b, rest, hb, ih.1 hrest, (Except.ok.inj h).symm⟩
      · rintro ⟨b, rest, hb, hrest, rfl⟩
        exact ⟨b, hb, bind_eq_ok.2 ⟨rest, ih.2 hrest, rfl⟩⟩

theorem exists_of_mem_left {f : α → Outcome β} {as : List α} {bs : List β}
    (h : as.mapM f = .ok bs) {a : α} (ha : a ∈ as) : ∃ b ∈ bs, f a = .ok b :=
  Lists.exists_of_forall₂ (mapM_eq_ok.1 h) ha

theorem exists_of_mem_right {f : α → Outcome β} {as : List α} {bs : List β}
    (h : as.mapM f = .ok bs) {b : β} (hb : b ∈ bs) : ∃ a ∈ as, f a = .ok b :=
  Lists.exists_of_forall₂_right (mapM_eq_ok.1 h) hb

/-- A check of all members passes when each of them does. -/
theorem forM_eq_ok {f : α → Outcome Unit} {as : List α} :
    as.forM f = .ok () ↔ ∀ a ∈ as, f a = .ok () := by
  induction as with
  | nil => exact ⟨fun _ a ha => (by cases ha), fun _ => rfl⟩
  | cons a as ih =>
      rw [List.forall_mem_cons, ← ih]
      change (f a >>= fun _ => as.forM f) = .ok () ↔ _
      rw [bind_eq_ok]
      exact ⟨fun ⟨⟨⟩, ha, has⟩ => ⟨ha, has⟩, fun ⟨ha, has⟩ => ⟨(), ha, has⟩⟩

/-- When each member has an outcome of some kind, the members have a list of them. -/
theorem exists_mapM_eq_ok {f : α → Outcome β} {R : α → β → Prop} {as : List α}
    (h : ∀ a ∈ as, ∃ b, f a = .ok b ∧ R a b) :
    ∃ bs, as.mapM f = .ok bs ∧ List.Forall₂ R as bs := by
  obtain ⟨bs, hbs⟩ := Lists.exists_forall₂ h
  exact ⟨bs, mapM_eq_ok.2 (hbs.imp fun _ _ hab => hab.1), hbs.imp fun _ _ hab => hab.2⟩

/-- Where all members of a list have outcomes some of them do too. -/
theorem exists_mapM_of_subset {f : α → Outcome β} {as as' : List α} {bs : List β}
    (hsub : ∀ a ∈ as', a ∈ as) (h : as.mapM f = .ok bs) :
    ∃ bs', as'.mapM f = .ok bs' ∧ ∀ b ∈ bs', b ∈ bs := by
  obtain ⟨bs', hbs', hmem⟩ := exists_mapM_eq_ok (f := f) (R := fun _ b => b ∈ bs) fun a ha => by
    obtain ⟨b, hb, hab⟩ := exists_of_mem_left h (hsub a ha)
    exact ⟨b, hab, hb⟩
  refine ⟨bs', hbs', fun b hb => ?_⟩
  obtain ⟨_, -, hmem⟩ := Lists.exists_of_forall₂_right hmem hb
  exact hmem

/-- A list of outcomes fails with the fault of a member. -/
theorem exists_of_mapM_eq_error {f : α → Outcome β} {as : List α} {e : Fault}
    (h : as.mapM f = .error e) : ∃ a ∈ as, f a = .error e := by
  induction as with
  | nil => cases h
  | cons a as ih =>
      rw [List.mapM_cons, bind_eq_error] at h
      rcases h with ha | ⟨b, -, h⟩
      · exact ⟨a, List.mem_cons_self .., ha⟩
      · rcases bind_eq_error.1 h with h | ⟨bs, -, h⟩
        · obtain ⟨a', ha', hfault⟩ := ih h
          exact ⟨a', List.mem_cons_of_mem a ha', hfault⟩
        · cases h

/-- What each step keeps is kept by all of them. -/
theorem foldlM_induction {f : β → α → Outcome β} {P : β → Prop} {as : List α}
    (hstep : ∀ b b', P b → ∀ a ∈ as, f b a = .ok b' → P b') {b b' : β} (hb : P b)
    (h : as.foldlM f b = .ok b') : P b' := by
  induction as generalizing b with
  | nil =>
      cases h
      exact hb
  | cons a as ih =>
      rw [List.foldlM_cons] at h
      obtain ⟨c, hc, h⟩ := bind_eq_ok.1 h
      exact ih (fun x x' hx a' ha' => hstep x x' hx a' (List.mem_cons_of_mem a ha'))
        (hstep b c hb a (List.mem_cons_self ..) hc) h

/-- A fold whose steps keep an invariant and do not fail under it does not fail. -/
theorem exists_foldlM_eq_ok {f : β → α → Outcome β} {P : β → Prop} {as : List α}
    (hstep : ∀ b, P b → ∀ a ∈ as, ∃ b', f b a = .ok b' ∧ P b') {b : β} (hb : P b) :
    ∃ b', as.foldlM f b = .ok b' ∧ P b' := by
  induction as generalizing b with
  | nil => exact ⟨b, rfl, hb⟩
  | cons a as ih =>
      obtain ⟨b₁, hone, hb₁⟩ := hstep b hb a (List.mem_cons_self ..)
      obtain ⟨b', hmore, hb'⟩ :=
        ih (fun b hb a' ha' => hstep b hb a' (List.mem_cons_of_mem a ha')) hb₁
      refine ⟨b', ?_, hb'⟩
      rw [List.foldlM_cons]
      exact bind_eq_ok.2 ⟨b₁, hone, hmore⟩

/-- When each outcome tells its member, the outcomes tell the list. -/
theorem map_eq_of_mapM {f : α → Outcome β} {g : β → α} {as : List α} {bs : List β}
    (h : as.mapM f = .ok bs) (hg : ∀ a ∈ as, ∀ b, f a = .ok b → g b = a) : bs.map g = as := by
  rw [mapM_eq_ok] at h
  induction h with
  | nil => rfl
  | @cons a b as bs hab _ ih =>
      rw [List.map_cons, hg a (List.mem_cons_self ..) b hab,
        ih fun a' ha' => hg a' (List.mem_cons_of_mem a ha')]

/-- Only the outcomes of the members count. -/
theorem mapM_congr {f g : α → Outcome β} {as : List α} (h : ∀ a ∈ as, f a = g a) :
    as.mapM f = as.mapM g := by
  induction as with
  | nil => rfl
  | cons a as ih =>
      rw [List.mapM_cons, List.mapM_cons, h a (List.mem_cons_self ..),
        ih fun b hb => h b (List.mem_cons_of_mem a hb)]

/-- Two steps on each member are a success when the first steps are and then the second ones. -/
theorem mapM_bind_eq_ok {γ : Type} {f : α → Outcome β} {g : β → Outcome γ} {as : List α}
    {cs : List γ} :
    as.mapM (fun a => f a >>= g) = .ok cs ↔ ∃ bs, as.mapM f = .ok bs ∧ bs.mapM g = .ok cs := by
  simp only [mapM_eq_ok]
  constructor
  · intro h
    induction h with
    | nil => exact ⟨[], .nil, .nil⟩
    | cons hac _ ih =>
        obtain ⟨b, hab, hbc⟩ := bind_eq_ok.1 hac
        obtain ⟨bs, hbs, hcs⟩ := ih
        exact ⟨b :: bs, .cons hab hbs, .cons hbc hcs⟩
  · rintro ⟨bs, hbs, hcs⟩
    induction hbs generalizing cs with
    | nil =>
        cases hcs
        exact .nil
    | cons hab _ ih =>
        cases hcs with
        | cons hbc hcs => exact .cons (bind_eq_ok.2 ⟨_, hab, hbc⟩) (ih hcs)

/-- A list of outcomes is a success when each of them is. -/
theorem mapM_eq_ok_iff_map {f : α → Outcome β} {as : List α} {bs : List β} :
    as.mapM f = .ok bs ↔ as.map f = bs.map .ok := by
  rw [mapM_eq_ok]
  induction as generalizing bs with
  | nil =>
      rw [List.forall₂_nil_left_iff, List.map_nil]
      exact ⟨fun h => by rw [h]; rfl, fun h => List.map_eq_nil_iff.1 h.symm⟩
  | cons a as ih =>
      rw [List.forall₂_cons_left_iff, List.map_cons, eq_comm (b := bs.map _), List.map_eq_cons_iff]
      constructor
      · rintro ⟨b, rest, hb, hrest, rfl⟩
        exact ⟨b, rest, rfl, hb.symm, (ih.1 hrest).symm⟩
      · rintro ⟨b, rest, rfl, hb, hrest⟩
        exact ⟨b, rest, hb.symm, ih.2 hrest.symm, rfl⟩

/-! ### Agreement -/

variable {γ δ : Type}

/-- Two outcomes agree: both fail, with whatever faults, or both succeed, with results that are
related. -/
inductive Agree (R : α → β → Prop) : Outcome α → Outcome β → Prop where
  | failed (e e' : Fault) : Agree R (.error e) (.error e')
  | done {a : α} {b : β} (h : R a b) : Agree R (.ok a) (.ok b)

namespace Agree

variable {R : α → β → Prop} {S : γ → δ → Prop}

theorem refl (x : Outcome α) : Agree Eq x x := by
  cases x with
  | error e => exact .failed e e
  | ok a => exact .done rfl

/-- **Steps that agree after outcomes that agree.** -/
theorem bind {x : Outcome α} {y : Outcome β} {f : α → Outcome γ} {g : β → Outcome δ}
    (h : Agree R x y) (hf : ∀ a b, R a b → Agree S (f a) (g b)) : Agree S (x >>= f) (y >>= g) := by
  cases h with
  | failed e e' => exact .failed e e'
  | done h => exact hf _ _ h

/-- Steps that agree after outcomes that agree in their results. -/
theorem bind_eq {x y : Outcome α} {f g : α → Outcome β} (h : Agree Eq x y)
    (hf : ∀ a, Agree Eq (f a) (g a)) : Agree Eq (x >>= f) (y >>= g) :=
  h.bind fun a _ hab => hab ▸ hf a

theorem map_eq {x y : Outcome α} (h : Agree Eq x y) (f : α → β) :
    Agree Eq (x.map f) (y.map f) := by
  cases h with
  | failed e e' => exact .failed e e'
  | done h => exact .done (congrArg f h)

/-- Lists of outcomes that agree one by one. -/
theorem mapM {f : α → Outcome γ} {g : β → Outcome δ} {as : List α} {bs : List β}
    (h : List.Forall₂ (fun a b => Agree S (f a) (g b)) as bs) :
    Agree (List.Forall₂ S) (as.mapM f) (bs.mapM g) := by
  induction h with
  | nil => exact .done .nil
  | cons hab _ ih =>
      rw [List.mapM_cons, List.mapM_cons]
      exact hab.bind fun c d hcd => ih.bind fun cs ds hcds => .done (.cons hcd hcds)

theorem mapM_eq {f g : α → Outcome β} {as : List α} (h : ∀ a ∈ as, Agree Eq (f a) (g a)) :
    Agree Eq (as.mapM f) (as.mapM g) := by
  induction as with
  | nil => exact refl _
  | cons a as ih =>
      obtain ⟨ha, has⟩ := List.forall_mem_cons.1 h
      rw [List.mapM_cons, List.mapM_cons]
      exact ha.bind_eq fun b => (ih has).bind_eq fun bs => refl _

theorem foldlM {f g : β → α → Outcome β} {as : List α}
    (h : ∀ b, ∀ a ∈ as, Agree Eq (f b a) (g b a)) (b : β) :
    Agree Eq (as.foldlM f b) (as.foldlM g b) := by
  induction as generalizing b with
  | nil => exact refl _
  | cons a as ih =>
      rw [List.foldlM_cons, List.foldlM_cons]
      exact (h b a (List.mem_cons_self ..)).bind_eq fun c =>
        ih (fun c x hx => h c x (List.mem_cons_of_mem a hx)) c

/-- The outcomes of lists of the same members have the same members. -/
theorem mapM_of_mem_iff {f : α → Outcome β} {as as' : List α} (h : ∀ a, a ∈ as ↔ a ∈ as') :
    Agree (fun bs bs' => ∀ b, b ∈ bs ↔ b ∈ bs') (as.mapM f) (as'.mapM f) := by
  have hback : ∀ a ∈ as, a ∈ as' := fun a ha => (h a).1 ha
  cases hleft : as.mapM f with
  | error e =>
      cases hright : as'.mapM f with
      | error e' => exact .failed e e'
      | ok bs' =>
          obtain ⟨_, hok, -⟩ := exists_mapM_of_subset hback hright
          cases hleft.symm.trans hok
  | ok bs =>
      obtain ⟨bs', hright, hsub⟩ := exists_mapM_of_subset (fun a ha => (h a).2 ha) hleft
      obtain ⟨_, hok, hsub'⟩ := exists_mapM_of_subset hback hright
      cases hleft.symm.trans hok
      rw [hright]
      exact .done fun b => ⟨hsub' b, hsub b⟩

end Agree

end ShardedSql.Outcome
