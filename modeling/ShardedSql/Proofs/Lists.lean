/-
**Parts of lists, and lists member by member.**

The edited text and the parameters of a row are both parts of a list that are gathered place by
place.  Lists that are related member by member have a member for each member, and as many that
satisfy a condition.  A fold that takes every member in has done so at its end.

Main results:

* `ShardedSql.Lists.flatMap_getElem?` — **the members at places in order are a part of the list**;
* `ShardedSql.Lists.flatMap_filter_eq_iff` — which members may be left out;
* `ShardedSql.Lists.exists_of_forall₂`, `ShardedSql.Lists.countP_eq_of_forall₂`,
  `ShardedSql.Lists.nodup_of_forall₂`, `ShardedSql.Lists.forall₂_of_forall₂`,
  `ShardedSql.Lists.forall₂_set` — lists that are related member by member;
* `ShardedSql.Lists.forall₂_filterMap_zipIdx` — what a partial function makes of the members stands
  at their places;
* `ShardedSql.Lists.flatMap_set_perm`, `ShardedSql.Lists.flatMap_filter_perm` — **what a list gives
  member by member**, when one member changes and when the members are taken key by key;
* `ShardedSql.Lists.nodup_eraseDups`, `ShardedSql.Lists.eraseDups_concat`,
  `ShardedSql.Lists.eraseDups_of_nodup` — equal members are kept once, the first of them;
* `ShardedSql.Lists.takeWhile_eq_filter`, `ShardedSql.Lists.dropWhile_eq_filter` — members before
  and behind the place where a condition begins to fail;
* `ShardedSql.Lists.findSome?_filter`, `ShardedSql.Lists.findSome?_eq_of_forall` — the first value
  of members that agree;
* `ShardedSql.Lists.foldl_covers` — what each step of a fold does for its member.
-/

import Mathlib.Data.List.Flatten
import Mathlib.Data.List.Forall2
import Mathlib.Data.List.Nodup
import Mathlib.Data.List.Range

set_option relaxedAutoImplicit false
set_option autoImplicit false

namespace ShardedSql.Lists

variable {α β : Type}

/-! ### Parts of lists -/

/-- The members at places in order, as far as there are any, are a part of the list. -/
theorem flatMap_getElem? (l : List α) (start n : Nat) :
    ((List.range' start n).flatMap fun i => l[i]?.toList) = (l.drop start).take n := by
  induction n generalizing start with
  | zero => simp
  | succ n ih =>
      rw [List.range'_succ, List.flatMap_cons, ih]
      by_cases hlt : start < l.length
      · rw [List.drop_eq_getElem_cons hlt, List.take_succ_cons, List.getElem?_eq_getElem hlt]
        rfl
      · rw [List.getElem?_eq_none (by omega), List.drop_eq_nil_of_le (by omega),
          List.drop_eq_nil_of_le (by omega)]
        simp

/-- Places from one on are those before another one and those from that one on. -/
theorem range'_split {i j n : Nat} (hij : i ≤ j) (hjn : j ≤ n) :
    List.range' i (n - i) = List.range' i (j - i) ++ List.range' j (n - j) := by
  have happ := List.range'_append_1 (s := i) (m := j - i) (n := n - j)
  rw [show i + (j - i) = j by omega, show j - i + (n - j) = n - i by omega] at happ
  exact happ.symm

theorem mem_flatten_of_getElem? {ls : List (List α)} {i : Nat} {l : List α} {a : α}
    (hl : ls[i]? = some l) (ha : a ∈ l) : a ∈ ls.flatten :=
  List.mem_flatten.2 ⟨l, List.mem_of_getElem? hl, ha⟩

/-- Of lists that each end earlier less is left. -/
theorem sublist_flatten_map_take (ls : List (List α)) (k : Nat) :
    (ls.map (List.take k)).flatten.Sublist ls.flatten := by
  induction ls with
  | nil => exact List.Sublist.refl []
  | cons l ls ih => exact (List.take_sublist k l).append ih

/-- Members that are left out are not missed exactly when they give nothing. -/
theorem flatMap_filter_eq_iff {p : α → Bool} {f : α → List β} {l : List α} :
    (l.filter p).flatMap f = l.flatMap f ↔ ∀ a ∈ l, f a ≠ [] → p a = true := by
  induction l with
  | nil => exact iff_of_true rfl fun a ha => by cases ha
  | cons a l ih =>
      rw [List.flatMap_cons, List.forall_mem_cons]
      by_cases hp : p a = true
      · rw [List.filter_cons_of_pos hp, List.flatMap_cons, List.append_cancel_left_eq, ih]
        exact (and_iff_right fun _ => hp).symm
      · rw [List.filter_cons_of_neg hp]
        constructor
        · intro h
          -- what the others give is no longer without those that are left out
          have hle := ((List.filter_sublist (p := p) (l := l)).flatMap f).length_le
          have hlength := congrArg List.length h
          rw [List.length_append] at hlength
          have hnil : f a = [] := List.length_eq_zero_iff.1 (by omega)
          rw [hnil, List.nil_append] at h
          exact ⟨fun hne => absurd hnil hne, ih.1 h⟩
        · rintro ⟨ha, hl⟩
          have hnil : f a = [] := by_contra fun hne => hp (ha hne)
          rw [hnil, List.nil_append, ih.2 hl]

/-- Equal members of a list are kept once. -/
theorem nodup_eraseDups [BEq α] [LawfulBEq α] : ∀ l : List α, l.eraseDups.Nodup
  | [] => List.nodup_nil
  | a :: l => by
      rw [List.eraseDups_cons, List.nodup_cons]
      refine ⟨fun h => ?_, nodup_eraseDups _⟩
      have hne := (List.mem_filter.1 (List.mem_eraseDups.1 h)).2
      simp at hne
termination_by l => l.length
decreasing_by exact Nat.lt_succ_of_le (List.length_filter_le _ l)

/-- Another member is kept if it was not there before. -/
theorem eraseDups_concat [BEq α] [LawfulBEq α] [DecidableEq α] (l : List α) (a : α) :
    (l ++ [a]).eraseDups = if a ∈ l then l.eraseDups else l.eraseDups ++ [a] := by
  rw [List.eraseDups_append]
  split
  · rename_i h
    simp [List.removeAll, h]
  · rename_i h
    simp [List.removeAll, h, List.eraseDups_cons]

/-- Equal members are dropped where they stand. -/
theorem eraseDups_sublist [BEq α] [LawfulBEq α] : ∀ l : List α, l.eraseDups.Sublist l
  | [] => List.Sublist.refl []
  | a :: l => by
      rw [List.eraseDups_cons]
      exact ((eraseDups_sublist _).trans List.filter_sublist).cons_cons a
termination_by l => l.length
decreasing_by exact Nat.lt_succ_of_le (List.length_filter_le _ l)

/-- A list falls apart by what its members are mapped to. -/
theorem flatMap_filter_perm {κ : Type} [BEq κ] [LawfulBEq κ] [DecidableEq κ] (f : α → κ) :
    ∀ l : List α, ((l.map f).eraseDups.flatMap fun k => l.filter fun a => f a = k).Perm l
  | [] => .refl _
  | a :: l => by
      have hothers : (l.map f).filter (fun k => !k == f a) =
          (l.filter fun b => !decide (f b = f a)).map f := by
        rw [List.filter_map]
        refine congrArg _ (List.filter_congr fun b _ => ?_)
        rw [Function.comp_apply, beq_eq_decide]
      have hkeys : ((l.map f).filter fun k => !k == f a).eraseDups.flatMap
            (fun k => (a :: l).filter fun b => f b = k) =
          ((l.filter fun b => !decide (f b = f a)).map f).eraseDups.flatMap
            fun k => (l.filter fun b => !decide (f b = f a)).filter fun b => f b = k := by
        rw [hothers]
        refine List.flatMap_congr fun k hk => ?_
        obtain ⟨b, hb, rfl⟩ := List.mem_map.1 (List.mem_eraseDups.1 hk)
        have hne : f b ≠ f a := by simpa using (List.mem_filter.1 hb).2
        rw [List.filter_cons_of_neg (by simpa using Ne.symm hne), List.filter_filter]
        refine List.filter_congr fun c _ => ?_
        by_cases hc : f c = f b
        · simp [hc, hne]
        · simp [hc]
      rw [List.map_cons, List.eraseDups_cons, List.flatMap_cons, hkeys,
        List.filter_cons_of_pos (by simp), List.cons_append]
      refine List.Perm.cons a ?_
      refine ((flatMap_filter_perm f _).append_left _).trans ?_
      exact List.filter_append_perm (fun b => decide (f b = f a)) l
termination_by l => l.length
decreasing_by exact Nat.lt_succ_of_le (List.length_filter_le _ l)

/-- A list without equal members stays as it is. -/
theorem eraseDups_of_nodup [BEq α] [LawfulBEq α] {l : List α} (h : l.Nodup) :
    l.eraseDups = l := by
  induction l with
  | nil => rfl
  | cons a l ih =>
      obtain ⟨ha, hl⟩ := List.nodup_cons.1 h
      have hall : (l.filter fun b => !b == a) = l := by
        refine List.filter_eq_self.2 fun b hb => ?_
        have hne : b ≠ a := fun heq => ha (heq ▸ hb)
        simp [hne]
      rw [List.eraseDups_cons, hall, ih hl]

/-- If a condition fails on all members behind one on which it fails, then the members before the
first such one are those that satisfy it. -/
theorem takeWhile_eq_filter {p : α → Bool} {l : List α}
    (h : l.Pairwise fun a b => p b = true → p a = true) : l.takeWhile p = l.filter p := by
  induction l with
  | nil => rfl
  | cons a l ih =>
      obtain ⟨ha, hl⟩ := List.pairwise_cons.1 h
      cases hp : p a with
      | true => rw [List.takeWhile_cons_of_pos hp, List.filter_cons_of_pos hp, ih hl]
      | false =>
          have hnone : l.filter p = [] := by
            refine List.filter_eq_nil_iff.2 fun b hb hpb => ?_
            rw [ha b hb hpb] at hp
            cases hp
          rw [List.takeWhile_cons_of_neg (by simp [hp]), List.filter_cons_of_neg (by simp [hp]),
            hnone]

theorem dropWhile_eq_filter {p : α → Bool} {l : List α}
    (h : l.Pairwise fun a b => p b = true → p a = true) :
    l.dropWhile p = l.filter fun a => !p a := by
  induction l with
  | nil => rfl
  | cons a l ih =>
      obtain ⟨ha, hl⟩ := List.pairwise_cons.1 h
      cases hp : p a with
      | true =>
          rw [List.dropWhile_cons_of_pos hp, List.filter_cons_of_neg (by simp [hp]), ih hl]
      | false =>
          have hall : l.filter (fun b => !p b) = l := by
            refine List.filter_eq_self.2 fun b hb => ?_
            cases hpb : p b with
            | false => rfl
            | true =>
                rw [ha b hb hpb] at hp
                cases hp
          rw [List.dropWhile_cons_of_neg (by simp [hp]), List.filter_cons_of_pos (by simp [hp]),
            hall]

/-- Another member in the place of one brings its own values in the place of those of that one. -/
theorem flatMap_set_perm {f : α → List β} {l : List α} {i : Nat} {a : α} (h : l[i]? = some a)
    (b : α) : ((l.set i b).flatMap f ++ f a).Perm (l.flatMap f ++ f b) := by
  induction l generalizing i with
  | nil => cases h
  | cons c l ih =>
      cases i with
      | zero =>
          cases h
          rw [List.set_cons_zero, List.flatMap_cons, List.flatMap_cons, List.append_assoc,
            List.append_assoc]
          refine (List.perm_append_comm_assoc _ _ _).trans ?_
          exact (List.perm_append_comm.append_left _).trans (List.perm_append_comm_assoc _ _ _)
      | succ i =>
          rw [List.set_cons_succ, List.flatMap_cons, List.flatMap_cons, List.append_assoc,
            List.append_assoc]
          exact (ih h).append_left (f c)

/-- A member in front of others and behind them. -/
theorem cons_eq_concat_iff {a : α} {l : List α} :
    a :: l = l ++ [a] ↔ ∀ b ∈ l, b = a := by
  induction l with
  | nil => simp
  | cons b rest ih =>
      rw [List.cons_append, List.cons_eq_cons, List.forall_mem_cons, ← ih]
      constructor
      · rintro ⟨rfl, h⟩
        exact ⟨rfl, h⟩
      · rintro ⟨rfl, h⟩
        exact ⟨rfl, h⟩

/-- A change of the member behind some others. -/
theorem modify_map_append {g : α → β} {change : β → β} {x y : α} (h : change (g x) = g y)
    (l r : List α) :
    ((l ++ x :: r).map g).modify l.length change = (l ++ y :: r).map g := by
  induction l with
  | nil => rw [List.nil_append, List.map_cons, List.length_nil, List.modify_zero_cons, h]; rfl
  | cons a l ih =>
      rw [List.cons_append, List.map_cons, List.length_cons, List.modify_succ_cons, ih]
      rfl

theorem filter_eq_nil_of_false {p : α → Bool} {l : List α} (h : ∀ a ∈ l, p a = false) :
    l.filter p = [] :=
  List.filter_eq_nil_iff.2 fun a ha => by rw [h a ha]; exact Bool.false_ne_true

/-! ### The first value -/

/-- Where members that satisfy a condition have the same value, theirs is that of the first one. -/
theorem findSome?_filter {l : List α} {p : α → Bool} {f : α → Option β}
    (h : ∀ a ∈ l, ∀ b ∈ l, p a = true → p b = true → f a = f b) :
    (l.filter p).findSome? f = (l.find? p).bind f := by
  induction l with
  | nil => rfl
  | cons a rest ih =>
      have hrest := ih fun b hb c hc =>
        h b (List.mem_cons_of_mem a hb) c (List.mem_cons_of_mem a hc)
      cases hp : p a with
      | false =>
          rw [List.filter_cons_of_neg (by simp [hp]), List.find?_cons_of_neg (by simp [hp]), hrest]
      | true =>
          rw [List.filter_cons_of_pos hp, List.find?_cons_of_pos hp, List.findSome?_cons,
            Option.bind_some]
          cases hfa : f a with
          | some b => rfl
          | none =>
              -- the others have what the first one has
              refine List.findSome?_eq_none_iff.2 fun b hb => ?_
              obtain ⟨hb, hpb⟩ := List.mem_filter.1 hb
              rw [← hfa]
              exact h b (List.mem_cons_of_mem a hb) a List.mem_cons_self hpb hp

theorem findSome?_congr {l : List α} {f g : α → Option β} (h : ∀ a ∈ l, f a = g a) :
    l.findSome? f = l.findSome? g := by
  induction l with
  | nil => rfl
  | cons a rest ih =>
      rw [List.findSome?_cons, List.findSome?_cons, h a List.mem_cons_self,
        ih fun b hb => h b (List.mem_cons_of_mem a hb)]

/-- The first value is the only one that members have, where one has it if it is one. -/
theorem findSome?_eq_of_forall {l : List α} {f : α → Option β} {o : Option β}
    (h : ∀ a ∈ l, f a = none ∨ f a = o) (hmem : o = none ∨ ∃ a ∈ l, f a = o) :
    l.findSome? f = o := by
  cases hfirst : l.findSome? f with
  | some b =>
      obtain ⟨a, ha, hfa⟩ := List.exists_of_findSome?_eq_some hfirst
      rcases h a ha with hnone | ho
      · cases hfa.symm.trans hnone
      · rw [← hfa, ho]
  | none =>
      rcases hmem with ho | ⟨a, ha, hfa⟩
      · exact ho.symm
      · rw [← hfa, List.findSome?_eq_none_iff.1 hfirst a ha]

/-! ### Member by member -/

variable {R : α → β → Prop} {as : List α} {bs : List β}

theorem exists_mem_zip_of_forall₂ (h : List.Forall₂ R as bs) {a : α} (ha : a ∈ as) :
    ∃ b, (a, b) ∈ as.zip bs ∧ R a b := by
  induction h with
  | nil => cases ha
  | @cons x y as bs hxy _ ih =>
      rcases List.mem_cons.1 ha with rfl | ha
      · exact ⟨y, List.mem_cons_self .., hxy⟩
      · obtain ⟨b, hb, hab⟩ := ih ha
        exact ⟨b, List.mem_cons_of_mem _ hb, hab⟩

theorem exists_of_forall₂ (h : List.Forall₂ R as bs) {a : α} (ha : a ∈ as) :
    ∃ b ∈ bs, R a b := by
  obtain ⟨b, hmem, hab⟩ := exists_mem_zip_of_forall₂ h ha
  exact ⟨b, (List.of_mem_zip hmem).2, hab⟩

/-- When each member has one of some kind, the members have a list of them. -/
theorem exists_forall₂ {R : α → β → Prop} {as : List α} (h : ∀ a ∈ as, ∃ b, R a b) :
    ∃ bs, List.Forall₂ R as bs := by
  induction as with
  | nil => exact ⟨[], .nil⟩
  | cons a as ih =>
      obtain ⟨b, hb⟩ := h a (List.mem_cons_self ..)
      obtain ⟨bs, hbs⟩ := ih fun a' ha' => h a' (List.mem_cons_of_mem a ha')
      exact ⟨b :: bs, .cons hb hbs⟩

/-- Members that are each one of some kind are the list of what they come from. -/
theorem exists_eq_map {f : β → α} {as : List α} (h : ∀ a ∈ as, ∃ b, a = f b) :
    ∃ bs : List β, as = bs.map f := by
  obtain ⟨bs, hbs⟩ := exists_forall₂ h
  refine ⟨bs, ?_⟩
  rwa [← List.forall₂_map_right_iff, List.forall₂_eq_eq_eq] at hbs

theorem exists_of_forall₂_right (h : List.Forall₂ R as bs) {b : β} (hb : b ∈ bs) :
    ∃ a ∈ as, R a b :=
  exists_of_forall₂ (List.Forall₂.flip h) hb

/-- Two relations to the same list relate the other two. -/
theorem forall₂_of_forall₂ {γ : Type} {S : α → γ → Prop} {T : β → γ → Prop} {cs : List γ}
    (h : List.Forall₂ R as bs) (h' : List.Forall₂ S as cs)
    (hT : ∀ a b c, R a b → S a c → T b c) : List.Forall₂ T bs cs := by
  induction h generalizing cs with
  | nil =>
      cases h'
      exact .nil
  | cons hab _ ih =>
      cases h' with
      | cons hac hrest => exact .cons (hT _ _ _ hab hac) (ih hrest)

/-- What a partial function makes of the members of a list, with their places. -/
theorem forall₂_filterMap_zipIdx (f : α → Option β) (l : List α) :
    List.Forall₂ (fun b i => ∃ a, l[i]? = some a ∧ f a = some b) (l.filterMap f)
      ((l.zipIdx.filter fun p => (f p.1).isSome).map (·.2)) := by
  have hmap : l.filterMap f = l.zipIdx.filterMap fun p => f p.1 := by
    rw [← List.zipIdx_map_fst 0 l, List.filterMap_map, List.zipIdx_map_fst]
    rfl
  have hplace : ∀ p ∈ l.zipIdx, l[p.2]? = some p.1 := fun p hp => List.mem_zipIdx_iff_getElem?.1 hp
  rw [hmap]
  generalize l.zipIdx = ps at hplace
  induction ps with
  | nil => exact .nil
  | cons p ps ih =>
      obtain ⟨hp, hps⟩ := List.forall_mem_cons.1 hplace
      cases hf : f p.1 with
      | none => simpa [hf] using ih hps
      | some b =>
          have hfilter : ((p :: ps).filter fun p => (f p.1).isSome) =
              p :: ps.filter fun p => (f p.1).isSome := List.filter_cons_of_pos (by rw [hf]; rfl)
          have hfilterMap : (p :: ps).filterMap (fun p => f p.1) =
              b :: ps.filterMap fun p => f p.1 := List.filterMap_cons_some hf
          rw [hfilter, hfilterMap, List.map_cons]
          exact .cons ⟨p.1, hp, hf⟩ (ih hps)

/-- Members that tell theirs apart are different when those are. -/
theorem nodup_of_forall₂ (h : List.Forall₂ R as bs) (has : as.Nodup)
    (hR : ∀ a a' b, R a b → R a' b → a = a') : bs.Nodup := by
  induction h with
  | nil => exact List.nodup_nil
  | @cons a b as bs hab hrest ih =>
      obtain ⟨ha, has⟩ := List.nodup_cons.1 has
      refine List.nodup_cons.2 ⟨fun hb => ?_, ih has⟩
      obtain ⟨a', ha', hab'⟩ := exists_of_forall₂_right hrest hb
      exact ha (hR a a' b hab hab' ▸ ha')

theorem countP_eq_of_forall₂ {f : α → Bool} {g : β → Bool} (h : List.Forall₂ R as bs)
    (hR : ∀ a b, R a b → f a = g b) : as.countP f = bs.countP g := by
  induction h with
  | nil => rfl
  | cons hab _ ih => rw [List.countP_cons, List.countP_cons, hR _ _ hab, ih]

/-- Another member takes the place of one when it is related to whatever that one was. -/
theorem forall₂_set (h : List.Forall₂ R as bs) {i : Nat} {b : β}
    (hb : ∀ a b₀, bs[i]? = some b₀ → R a b₀ → R a b) : List.Forall₂ R as (bs.set i b) := by
  induction h generalizing i with
  | nil => exact .nil
  | cons hab hrest ih =>
      cases i with
      | zero => exact .cons (hb _ _ rfl hab) hrest
      | succ i => exact .cons hab (ih hb)

/-! ### Folds -/

/-- When each step of a fold brings something about for its member, and no step undoes it, the fold
brings it about for all members. -/
theorem foldl_covers {f : β → α → β} {P : β → α → Prop} {as : List α}
    (hstep : ∀ b, ∀ a ∈ as, P (f b a) a) (hkeep : ∀ b a x, P b x → P (f b a) x) (b : β) :
    ∀ a ∈ as, P (as.foldl f b) a := by
  have hkept (rest : List α) (b : β) (x : α) (hx : P b x) : P (rest.foldl f b) x := by
    induction rest generalizing b with
    | nil => exact hx
    | cons a rest ih => exact ih (f b a) (hkeep b a x hx)
  induction as generalizing b with
  | nil => exact fun a ha => by cases ha
  | cons a as ih =>
      obtain ⟨ha, has⟩ := List.forall_mem_cons.1 (hstep b)
      refine List.forall_mem_cons.2 ⟨hkept as (f b a) a ha, ?_⟩
      exact ih (fun b x hx => hstep b x (List.mem_cons_of_mem a hx)) (f b a)

end ShardedSql.Lists
