/-
**Computations on a state, taken apart.**

Keys are counted, and edits are found, by computations that may fail and that keep what has changed
even then.  What a step leaves is where the next one begins, so a computation that succeeds is
taken apart into steps that succeed one after another.

Main results:

* `ShardedSql.Stateful.run_bind`, `ShardedSql.Stateful.bind_eq_ok` — **one step after another**;
* `ShardedSql.Stateful.pure_eq_ok`, `ShardedSql.Stateful.modify_eq_ok`,
  `ShardedSql.Stateful.get_eq_ok` — single steps;
* `ShardedSql.Stateful.liftOutcome_eq_ok`, `ShardedSql.Stateful.liftState_eq_ok` — steps that leave
  the state alone, and steps that do not fail.
-/

import ShardedSql.Proofs.Outcome

set_option relaxedAutoImplicit false
set_option autoImplicit false

namespace ShardedSql.Stateful

variable {σ α β : Type} {s s' : σ}

/-- Computations on a state that may fail. -/
abbrev Computation (σ α : Type) := ExceptT Fault (StateM σ) α

theorem pure_eq_ok {a b : α} :
    (pure a : Computation σ α).run.run s = (.ok b, s') ↔ a = b ∧ s = s' := by
  change ((Except.ok a, s) : Except Fault α × σ) = (.ok b, s') ↔ _
  rw [Prod.mk.injEq, Except.ok.injEq]

/-- What a step leaves is where the next one begins. -/
theorem run_bind (x : Computation σ α) (f : α → Computation σ β) (s : σ) :
    (x >>= f).run.run s =
      match x.run.run s with
      | (.ok a, s₁) => (f a).run.run s₁
      | (.error e, s₁) => (.error e, s₁) := by
  change ExceptT.bindCont f (x.run.run s).1 (x.run.run s).2 = _
  generalize x.run.run s = p
  obtain ⟨y, s₁⟩ := p
  cases y <;> rfl

theorem bind_eq_ok {x : Computation σ α} {f : α → Computation σ β} {b : β} :
    (x >>= f).run.run s = (.ok b, s') ↔
      ∃ a s₁, x.run.run s = (.ok a, s₁) ∧ (f a).run.run s₁ = (.ok b, s') := by
  rw [run_bind]
  cases hx : x.run.run s with
  | mk y s₁ =>
      cases y with
      | ok a =>
          refine ⟨fun h => ⟨a, s₁, rfl, h⟩, fun ⟨a', s₂, h, hf⟩ => ?_⟩
          cases h
          exact hf
      | error e =>
          constructor
          · intro h
            cases h
          · rintro ⟨a, s₂, h, -⟩
            cases h

theorem get_eq_ok {a : σ} :
    (get : Computation σ σ).run.run s = (.ok a, s') ↔ s = a ∧ s = s' := by
  change ((Except.ok s, s) : Except Fault σ × σ) = (.ok a, s') ↔ _
  rw [Prod.mk.injEq, Except.ok.injEq]

theorem modify_eq_ok {f : σ → σ} {u : PUnit} :
    (modify f : Computation σ PUnit).run.run s = (.ok u, s') ↔ f s = s' := by
  change ((Except.ok PUnit.unit, f s) : Except Fault PUnit × σ) = (.ok u, s') ↔ _
  rw [Prod.mk.injEq]
  exact ⟨fun h => h.2, fun h => ⟨rfl, h⟩⟩

theorem throw_ne_ok {e : Fault} {a : α} :
    (throw e : Computation σ α).run.run s ≠ (.ok a, s') := by
  intro h
  cases h

theorem run_liftOutcome (x : Outcome α) (s : σ) :
    (liftM (m := Except Fault) x : Computation σ α).run.run s = (x, s) := rfl

theorem run_liftState (x : StateM σ α) (s : σ) :
    (liftM (m := StateM σ) x : Computation σ α).run.run s = (.ok (x.run s).1, (x.run s).2) := rfl

/-- A step that leaves the state alone. -/
theorem liftOutcome_eq_ok {x : Outcome α} {a : α} :
    (liftM (m := Except Fault) x : Computation σ α).run.run s = (.ok a, s') ↔
      x = .ok a ∧ s = s' := by
  rw [run_liftOutcome, Prod.mk.injEq]

/-- A step that does not fail. -/
theorem liftState_eq_ok {x : StateM σ α} {a : α} :
    (liftM (m := StateM σ) x : Computation σ α).run.run s = (.ok a, s') ↔
      x.run s = (a, s') := by
  rw [run_liftState, Prod.mk.injEq, Except.ok.injEq, ← Prod.mk.injEq]
  rfl

end ShardedSql.Stateful
