/-
**Heaps under comparisons that agree.**

Adding a value and taking the top away only compare values of the heap.  So where a comparison is
not transitive on all values, it may be replaced by one that is and that agrees with it on the
values of the heap.

Main results:

* `ShardedSql.Heap.push_congr`, `ShardedSql.Heap.pop_congr` — **comparisons that agree on the
  values of a heap do the same to it**.
-/

import ShardedSql.Heap.Order

set_option relaxedAutoImplicit false
set_option autoImplicit false

namespace ShardedSql.Heap

variable {α : Type} {le le' : α → α → Bool}

/-! ### Adding a value -/

theorem Rise.fromLeft_congr {x above : α} (h : le above x = le' above x) (right : Heap α)
    (u : Rise α) : u.fromLeft le x above right = u.fromLeft le' x above right := by
  cases u with
  | settled t => rfl
  | rising a b => rw [fromLeft, fromLeft, h]

theorem Rise.fromRight_congr {x above : α} (h : le above x = le' above x) (left : Heap α)
    (u : Rise α) : u.fromRight le x above left = u.fromRight le' x above left := by
  cases u with
  | settled t => rfl
  | rising a b => rw [fromRight, fromRight, h]

theorem place_congr {x : α} {t : Heap α} (ts : List Bool)
    (h : ∀ a ∈ t.toList, le a x = le' a x) : place le x t ts = place le' x t ts := by
  induction t generalizing ts with
  | empty => rfl
  | node v l r hl hr =>
      have hv : le v x = le' v x := h v (by simp [toList])
      rw [place, place, hl _ fun a ha => h a (by simp [toList, ha]),
        hr _ fun a ha => h a (by simp [toList, ha]), Rise.fromLeft_congr hv,
        Rise.fromRight_congr hv]

/-- **Comparisons that agree add a value at the same place.** -/
theorem push_congr {x : α} {t : Heap α} (h : ∀ a ∈ t.toList, le a x = le' a x) :
    push le x t = push le' x t := by
  rw [push, push, place_congr _ h]

/-! ### Taking the top away -/

theorem mem_toList_of_top? {t : Heap α} {v : α} (h : t.top? = some v) : v ∈ t.toList := by
  rw [toList_of_top? h]
  exact List.mem_cons_self ..

theorem goesRight_congr {l r : Heap α} (h : ∀ a ∈ r.toList, ∀ b ∈ l.toList, le a b = le' a b) :
    goesRight le l r = goesRight le' l r := by
  unfold goesRight
  cases hl : l.top? with
  | none => cases r.top? <;> rfl
  | some a =>
      cases hr : r.top? with
      | none => rfl
      | some b => exact h b (mem_toList_of_top? hr) a (mem_toList_of_top? hl)

theorem refill_congr {x : α} {t : Heap α}
    (h : ∀ a ∈ t.toList, ∀ b ∈ x :: t.toList, le a b = le' a b) :
    refill le x t = refill le' x t := by
  induction t with
  | empty => rfl
  | node v l r hl hr =>
      have hleft : refill le x l = refill le' x l := hl fun a ha b hb =>
        h a (by simp [toList, ha]) b
          (by rcases List.mem_cons.1 hb with rfl | hb <;> simp [toList, *])
      have hright : refill le x r = refill le' x r := hr fun a ha b hb =>
        h a (by simp [toList, ha]) b
          (by rcases List.mem_cons.1 hb with rfl | hb <;> simp [toList, *])
      have hgoes : goesRight le l r = goesRight le' l r := goesRight_congr fun a ha b hb =>
        h a (by simp [toList, ha]) b (by simp [toList, hb])
      rw [refill, refill, hgoes, hleft, hright]
      split
      · cases hr : r.top? with
        | none => rfl
        | some w =>
            have hw := mem_toList_of_top? hr
            exact Rise.fromRight_congr (h w (by simp [toList, hw]) x (List.mem_cons_self ..)) _ _
      · cases hl : l.top? with
        | none => rfl
        | some w =>
            have hw := mem_toList_of_top? hl
            exact Rise.fromLeft_congr (h w (by simp [toList, hw]) x (List.mem_cons_self ..)) _ _

/-- **Comparisons that agree take the same value away.** -/
theorem pop_congr {t : Heap α} (h : ∀ a ∈ t.toList, ∀ b ∈ t.toList, le a b = le' a b) :
    pop le t = pop le' t := by
  unfold pop
  cases ht : t.takeLast (turns t.size) with
  | none => rfl
  | some p =>
      obtain ⟨x, rest⟩ := p
      have hmem := takeLast_perm ht
      have hrefill : refill le x rest = refill le' x rest := refill_congr fun a ha b hb =>
        h a (hmem.mem_iff.2 (List.mem_cons_of_mem x ha)) b (hmem.mem_iff.2 hb)
      simp only [hrefill]

end ShardedSql.Heap
