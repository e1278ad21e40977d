/-
**The order of the values in a heap.**

If a comparison is total and transitive then adding a value and taking the top away keep every
value behind those above it, so the value taken away is a smallest one.

Main definitions:

* `ShardedSql.Heap.IsHeap` — no value is smaller than one above it;
* `ShardedSql.Heap.Rise.Sound` — the same while a value is on its way up.

Main results:

* `ShardedSql.Heap.isHeap_push`, `ShardedSql.Heap.isHeap_pop` — **what is a heap remains one**;
* `ShardedSql.Heap.le_of_pop` — **the value taken away is a smallest one**.
-/

import ShardedSql.Heap

set_option relaxedAutoImplicit false
set_option autoImplicit false

namespace ShardedSql.Heap

variable {α : Type}

/-! ### The order -/

/-- No value is smaller than one above it. -/
def IsHeap (le : α → α → Bool) : Heap α → Prop
  | .empty => True
  | .node x l r => (∀ y ∈ l.toList ++ r.toList, le x y = true) ∧ l.IsHeap le ∧ r.IsHeap le

/-- A value on its way up from a tree with the values `old`: what it is part of is a heap, and if
it has found its place then one of the others is not larger. -/
structure Rise.Sound (le : α → α → Bool) (x : α) (old : List α) (u : Rise α) : Prop where
  isHeap : (u.tree x).IsHeap le
  perm : (u.tree x).toList.Perm (x :: old)
  bounded : ∀ t, u = .settled t → ∃ c ∈ old, le c x = true

variable {le : α → α → Bool}

theorem Rise.sound_fromLeft (total : ∀ a b, le a b = true ∨ le b a = true)
    (trans : ∀ a b c, le a b = true → le b c = true → le a c = true) {x above : α}
    {old : List α} {r : Heap α} {u : Rise α} (hu : u.Sound le x old)
    (hold : ∀ y ∈ old, le above y = true) (hr : r.IsHeap le)
    (hright : ∀ y ∈ r.toList, le above y = true) :
    (u.fromLeft le x above r).Sound le x (above :: (old ++ r.toList)) := by
  have hperm : ((u.fromLeft le x above r).tree x).toList.Perm
      (x :: above :: (old ++ r.toList)) :=
    (toList_fromLeft ..).trans
      ((List.Perm.cons _ (hu.perm.append_right _)).trans (.swap _ _ _))
  cases u with
  | settled t =>
      obtain ⟨c, hc, hcx⟩ := hu.bounded t rfl
      have hx : le above x = true := trans _ _ _ (hold c hc) hcx
      refine ⟨⟨?_, hu.isHeap, hr⟩, hperm, fun _ _ => ⟨above, by simp, hx⟩⟩
      intro y hy
      rcases List.mem_append.mp hy with hy | hy
      · rcases List.mem_cons.mp (hu.perm.mem_iff.mp hy) with rfl | hy
        · exact hx
        · exact hold y hy
      · exact hright y hy
  | rising a b =>
      have hab : ∀ y ∈ a.toList ++ b.toList, le above y = true := fun y hy =>
        hold y ((List.Perm.cons_inv hu.perm).mem_iff.mp hy)
      obtain ⟨hxab, ha, hb⟩ := hu.isHeap
      by_cases h : le above x
      · simp only [fromLeft, h, if_true] at hperm ⊢
        refine ⟨⟨?_, ⟨hxab, ha, hb⟩, hr⟩, hperm, fun _ _ => ⟨above, by simp, h⟩⟩
        intro y hy
        rcases List.mem_append.mp hy with hy | hy
        · rcases List.mem_cons.mp hy with rfl | hy
          · exact h
          · exact hab y hy
        · exact hright y hy
      · have hx : le x above = true := (total x above).resolve_right h
        simp only [fromLeft, h] at hperm ⊢
        refine ⟨⟨?_, ⟨hab, ha, hb⟩, hr⟩, hperm, fun _ e => by simp at e⟩
        intro y hy
        rcases List.mem_append.mp hy with hy | hy
        · rcases List.mem_cons.mp hy with rfl | hy
          · exact hx
          · exact hxab y hy
        · exact trans _ _ _ hx (hright y hy)

theorem Rise.sound_fromRight (total : ∀ a b, le a b = true ∨ le b a = true)
    (trans : ∀ a b c, le a b = true → le b c = true → le a c = true) {x above : α}
    {old : List α} {l : Heap α} {u : Rise α} (hu : u.Sound le x old)
    (hold : ∀ y ∈ old, le above y = true) (hl : l.IsHeap le)
    (hleft : ∀ y ∈ l.toList, le above y = true) :
    (u.fromRight le x above l).Sound le x (above :: (l.toList ++ old)) := by
  have hperm : ((u.fromRight le x above l).tree x).toList.Perm
      (x :: above :: (l.toList ++ old)) :=
    (toList_fromRight ..).trans
      ((List.Perm.cons _ ((hu.perm.append_left _).trans List.perm_middle)).trans (.swap _ _ _))
  cases u with
  | settled t =>
      obtain ⟨c, hc, hcx⟩ := hu.bounded t rfl
      have hx : le above x = true := trans _ _ _ (hold c hc) hcx
      refine ⟨⟨?_, hl, hu.isHeap⟩, hperm, fun _ _ => ⟨above, by simp, hx⟩⟩
      intro y hy
      rcases List.mem_append.mp hy with hy | hy
      · exact hleft y hy
      · rcases List.mem_cons.mp (hu.perm.mem_iff.mp hy) with rfl | hy
        · exact hx
        · exact hold y hy
  | rising a b =>
      have hab : ∀ y ∈ a.toList ++ b.toList, le above y = true := fun y hy =>
        hold y ((List.Perm.cons_inv hu.perm).mem_iff.mp hy)
      obtain ⟨hxab, ha, hb⟩ := hu.isHeap
      by_cases h : le above x
      · simp only [fromRight, h, if_true] at hperm ⊢
        refine ⟨⟨?_, hl, ⟨hxab, ha, hb⟩⟩, hperm, fun _ _ => ⟨above, by simp, h⟩⟩
        intro y hy
        rcases List.mem_append.mp hy with hy | hy
        · exact hleft y hy
        · rcases List.mem_cons.mp hy with rfl | hy
          · exact h
          · exact hab y hy
      · have hx : le x above = true := (total x above).resolve_right h
        simp only [fromRight, h] at hperm ⊢
        refine ⟨⟨?_, hl, ⟨hab, ha, hb⟩⟩, hperm, fun _ e => by simp at e⟩
        intro y hy
        rcases List.mem_append.mp hy with hy | hy
        · exact trans _ _ _ hx (hleft y hy)
        · rcases List.mem_cons.mp hy with rfl | hy
          · exact hx
          · exact hxab y hy

theorem sound_place (total : ∀ a b, le a b = true ∨ le b a = true)
    (trans : ∀ a b c, le a b = true → le b c = true → le a c = true) (x : α) {t : Heap α}
    (ts : List Bool) (h : t.IsHeap le) : (place le x t ts).Sound le x t.toList := by
  induction t generalizing ts with
  | empty => exact ⟨⟨by simp [toList], trivial, trivial⟩, .refl _, fun _ e => by simp [place] at e⟩
  | node v l r ihl ihr =>
      obtain ⟨hv, hl, hr⟩ := h
      have hvl : ∀ y ∈ l.toList, le v y = true := fun y hy => hv y (by simp [hy])
      have hvr : ∀ y ∈ r.toList, le v y = true := fun y hy => hv y (by simp [hy])
      unfold place
      split
      · exact Rise.sound_fromRight total trans (ihr _ hr) hvr hl hvl
      · exact Rise.sound_fromLeft total trans (ihl _ hl) hvl hr hvr

theorem isHeap_push (total : ∀ a b, le a b = true ∨ le b a = true)
    (trans : ∀ a b c, le a b = true → le b c = true → le a c = true) (x : α) {t : Heap α}
    (h : t.IsHeap le) : (push le x t).IsHeap le := (sound_place total trans x _ h).isHeap

theorem le_of_mem_under {t : Heap α} {v y : α} (h : t.IsHeap le) (hv : t.top? = some v)
    (hy : y ∈ t.under) : le v y = true := by
  cases t with
  | empty => simp [top?] at hv
  | node x l r =>
      simp only [top?, Option.some.injEq] at hv
      subst hv
      exact h.1 y hy

theorem isHeap_takeLast {t rest : Heap α} {ts : List Bool} {x : α} (h : t.IsHeap le)
    (ht : t.takeLast ts = some (x, rest)) : rest.IsHeap le := by
  induction t generalizing ts x rest with
  | empty => simp [takeLast] at ht
  | node v l r ihl ihr =>
      obtain ⟨hv, hl, hr⟩ := h
      have left : ∀ {l' : Heap α}, l.takeLast ts.tail = some (x, l') →
          IsHeap le (.node v l' r) := by
        intro l' e
        refine ⟨fun y hy => hv y ?_, ihl hl e, hr⟩
        rcases List.mem_append.mp hy with hy | hy
        · exact List.mem_append_left _ ((takeLast_perm e).mem_iff.mpr (List.mem_cons_of_mem _ hy))
        · exact List.mem_append_right _ hy
      have right : ∀ {r' : Heap α}, r.takeLast ts.tail = some (x, r') →
          IsHeap le (.node v l r') := by
        intro r' e
        refine ⟨fun y hy => hv y ?_, hl, ihr hr e⟩
        rcases List.mem_append.mp hy with hy | hy
        · exact List.mem_append_left _ hy
        · exact List.mem_append_right _ ((takeLast_perm e).mem_iff.mpr (List.mem_cons_of_mem _ hy))
      rcases takeLast_cases ht with ⟨l', e, rfl⟩ | ⟨r', e, rfl⟩ | ⟨_, rfl⟩
      · exact left e
      · exact right e
      · trivial

theorem sound_refill (total : ∀ a b, le a b = true ∨ le b a = true)
    (trans : ∀ a b c, le a b = true → le b c = true → le a c = true) (x : α) {t : Heap α}
    (h : t.IsHeap le) : (refill le x t).Sound le x t.under := by
  induction t with
  | empty =>
      exact ⟨⟨by simp [toList], trivial, trivial⟩, .refl _, fun _ e => by simp [refill] at e⟩
  | node v l r ihl ihr =>
      obtain ⟨_, hl, hr⟩ := h
      unfold refill
      cases hlt : l.top? with
      | none =>
          rw [top?_eq_none_iff] at hlt
          subst hlt
          cases hrt : r.top? with
          | none =>
              rw [top?_eq_none_iff] at hrt
              subst hrt
              exact ⟨⟨by simp [toList], trivial, trivial⟩, .refl _, fun _ e => by
                simp [goesRight, top?] at e⟩
          | some b =>
              have := Rise.sound_fromRight total trans (ihr hr) (fun y => le_of_mem_under hr hrt)
                (l := .empty) trivial (by simp [toList])
              have right : goesRight le .empty r = true := by
                unfold goesRight
                rw [hrt]
                rfl
              simp only [right, if_true, under, toList, List.nil_append, toList_of_top? hrt]
              exact this
      | some a =>
          cases hrt : r.top? with
          | none =>
              rw [top?_eq_none_iff] at hrt
              subst hrt
              have := Rise.sound_fromLeft total trans (ihl hl) (fun y => le_of_mem_under hl hlt)
                (r := .empty) trivial (by simp [toList])
              simpa [goesRight, top?, hlt, under, toList, toList_of_top? hlt] using this
          | some b =>
              have hal : ∀ y ∈ l.toList, le a a = true → le a y = true := by
                intro y hy haa
                rw [toList_of_top? hlt] at hy
                rcases List.mem_cons.mp hy with rfl | hy
                · exact haa
                · exact le_of_mem_under hl hlt hy
              have hbr : ∀ y ∈ r.toList, le b b = true → le b y = true := by
                intro y hy hbb
                rw [toList_of_top? hrt] at hy
                rcases List.mem_cons.mp hy with rfl | hy
                · exact hbb
                · exact le_of_mem_under hr hrt hy
              have haa : le a a = true := (total a a).elim id id
              have hbb : le b b = true := (total b b).elim id id
              by_cases hba : le b a = true
              · have := Rise.sound_fromRight total trans (ihr hr)
                  (fun y => le_of_mem_under hr hrt) hl
                  (fun y hy => trans _ _ _ hba (hal y hy haa))
                simp only [goesRight, hlt, hrt, hba, if_true]
                refine ⟨this.isHeap, this.perm.trans (.cons _ ?_), fun t e => ?_⟩
                · rw [under, toList_of_top? hrt]
                  exact List.perm_middle.symm
                · obtain ⟨c, hc, hcx⟩ := this.bounded t e
                  refine ⟨c, ?_, hcx⟩
                  rw [under, toList_of_top? hrt]
                  exact List.perm_middle.symm.mem_iff.mp hc
              · have hab : le a b = true := (total a b).resolve_right hba
                have := Rise.sound_fromLeft total trans (ihl hl)
                  (fun y => le_of_mem_under hl hlt) hr
                  (fun y hy => trans _ _ _ hab (hbr y hy hbb))
                simpa [goesRight, hlt, hrt, hba, under, toList_of_top? hlt] using this

theorem isHeap_pop (total : ∀ a b, le a b = true ∨ le b a = true)
    (trans : ∀ a b c, le a b = true → le b c = true → le a c = true) {t rest : Heap α} {v : α}
    (h : t.IsHeap le) (ht : pop le t = some (v, rest)) : rest.IsHeap le := by
  unfold pop at ht
  split at ht
  · cases ht
  · rename_i x t' hx
    split at ht
    · cases ht
      trivial
    · cases ht
      exact (sound_refill total trans x (isHeap_takeLast h hx)).isHeap

theorem le_of_pop {t rest : Heap α} {v y : α} (h : t.IsHeap le)
    (ht : pop le t = some (v, rest)) (hy : y ∈ rest.toList) : le v y = true := by
  have hv : t.top? = some v := top?_of_pop ht
  have hp := pop_perm ht
  rw [toList_of_top? hv] at hp
  exact le_of_mem_under h hv ((List.Perm.cons_inv hp).mem_iff.mpr hy)

end ShardedSql.Heap
