/-
**A counter goes up while its keys fit into 64 bits, and then begins again from below.**

A counter gives out one integer after another, each of them a step above the one before.  The step
is above zero, as a counter with another one is not made.  Nothing looks at the end of the integers:
the call behind the greatest one that fits succeeds as all others do, and its key is what is left of
the next integer in 64 bits, which is below zero.  So the keys increase exactly as long as all of
them fit, and a key is given out again when the steps since then make up a multiple of 2^64.

Main definitions:

* `ShardedSql.KeyGenerator.outcomes` — the outcomes of so many calls, one after another;
* `ShardedSql.KeyGenerator.key?` — the integer that a call gave;
* `ShardedSql.KeyGenerator.counted` — where a counter is after so many calls, without an end to the
  integers;
* `ShardedSql.KeyGenerator.counterKey` — what is left of it in 64 bits.

Main results:

* `ShardedSql.Signed.ofInt_eq_iff` — integers that are cut to the same 64 bits;
* `ShardedSql.KeyGeneratorType.make_increment_eq_ok` — which counters are made;
* `ShardedSql.KeyGenerator.outcomes_increment` — what the calls of a counter give;
* `ShardedSql.KeyGenerator.increasing_iff` — **its keys increase exactly while all of them fit**;
* `ShardedSql.KeyGenerator.counterKey_eq_iff` — when a key is given out again;
* `ShardedSql.KeyGenerator.increment_spec` — all of this, for every counter that is made.
-/

import Mathlib.Tactic.Ring
import ShardedSql.KeyGenerator
import ShardedSql.Proofs.Outcome

set_option relaxedAutoImplicit false
set_option autoImplicit false

namespace ShardedSql

/-! ### Integers cut to 64 bits -/

/-- Integers are cut to the same 64 bits when they are multiples of 2^64 apart. -/
theorem Signed.ofInt_eq_iff {m n : Int} :
    Int64.ofInt m = Int64.ofInt n ↔ (18446744073709551616 : Int) ∣ m - n := by
  have hsize : Int64.size = 18446744073709551616 := rfl
  rw [← Int64.toInt_inj, Int64.toInt_ofInt, Int64.toInt_ofInt,
    Int.bmod_eq_bmod_iff_bmod_sub_eq_zero, hsize]
  exact Int.dvd_iff_bmod_eq_zero.symm

/-! ### Which counters are made -/

/-- A counter is made from two integers, of which the step is above zero. -/
theorem KeyGeneratorType.make_increment_eq_ok {props : Properties} {g : KeyGenerator} :
    KeyGeneratorType.increment.make props = .ok g ↔
      ∃ first step, intProperty props "initial-value" 1 = .ok first ∧
        intProperty props "step" 1 = .ok step ∧ 0 < step.toInt ∧ g = .increment first step := by
  simp only [make, makeIncrement, Outcome.bind_eq_ok]
  constructor
  · rintro ⟨first, hfirst, step, hstep, h⟩
    split at h
    · cases h
    · rename_i hpos
      cases h
      exact ⟨first, step, hfirst, hstep, by omega, rfl⟩
  · rintro ⟨first, step, hfirst, hstep, hpos, rfl⟩
    refine ⟨first, hfirst, step, hstep, ?_⟩
    rw [if_neg (by omega)]
    rfl

namespace KeyGenerator

/-! ### Calls -/

/-- The outcomes of so many calls of a generator, one after another. -/
def outcomes (g : KeyGenerator) (readings : Readings) : Nat → List (Outcome Value)
  | 0 => []
  | n + 1 =>
      let (key, g', readings') := g.next readings
      key :: g'.outcomes readings' n

/-- The integer that a call gave, if it did. -/
def key? : Outcome Value → Option Int64
  | .ok (.int k) => some k
  | _ => none

/-- Where a counter is after so many calls, without an end to the integers. -/
def counted (first step : Int64) (n : Nat) : Int := first.toInt + n * step.toInt

/-- What is left of it in 64 bits. -/
def counterKey (first step : Int64) (n : Nat) : Int64 := Int64.ofInt (counted first step n)

variable {first step : Int64} {n i j : Nat}

@[simp] theorem counted_zero (first step : Int64) : counted first step 0 = first.toInt := by
  simp [counted]

theorem counted_succ (first step : Int64) (n : Nat) :
    counted first step (n + 1) = counted first step n + step.toInt := by
  simp only [counted]
  push_cast
  ring

@[simp] theorem counterKey_zero (first step : Int64) : counterKey first step 0 = first := by
  rw [counterKey, counted_zero, Int64.ofInt_toInt]

/-- A counter that has moved by one step is one call ahead. -/
theorem counterKey_add_step (first step : Int64) (n : Nat) :
    counterKey (first + step) step n = counterKey first step (n + 1) := by
  have hahead : counterKey (first + step) step n =
      (first + step) + Int64.ofInt (n * step.toInt) := by
    rw [counterKey, counted, Int64.ofInt_add, Int64.ofInt_toInt]
  have hbehind : counterKey first step (n + 1) =
      first + Int64.ofInt (n * step.toInt) + step := by
    rw [counterKey, counted_succ, counted, Int64.ofInt_add, Int64.ofInt_add, Int64.ofInt_toInt,
      Int64.ofInt_toInt]
  rw [hahead, hbehind, Int64.add_assoc, Int64.add_assoc, Int64.add_comm step]

/-- **Every call of a counter succeeds**, and gives what is left in 64 bits of where it is. -/
theorem outcomes_increment (first step : Int64) (readings : Readings) (n : Nat) :
    (increment first step).outcomes readings n =
      (List.range n).map fun i => .ok (.int (counterKey first step i)) := by
  induction n generalizing first with
  | zero => rfl
  | succ n ih =>
      rw [outcomes, next_increment, List.range_succ_eq_map, List.map_cons, List.map_map,
        counterKey_zero]
      simp only [ih, counterKey_add_step]
      rfl

theorem filterMap_key?_increment (first step : Int64) (readings : Readings) (n : Nat) :
    ((increment first step).outcomes readings n).filterMap key? =
      (List.range n).map (counterKey first step) := by
  rw [outcomes_increment, List.filterMap_map, ← List.filterMap_eq_map]
  rfl

/-! ### Keys that fit -/

theorem le_counted (first : Int64) (hstep : 0 < step.toInt) (n : Nat) :
    first.toInt ≤ counted first step n := by
  have hnonneg : 0 ≤ (n : Int) * step.toInt := Int.mul_nonneg (by omega) (by omega)
  simp only [counted]
  omega

theorem counted_lt (hstep : 0 < step.toInt) (hij : i < j) :
    counted first step i < counted first step j := by
  have hlt : (i : Int) * step.toInt < j * step.toInt :=
    Int.mul_lt_mul_of_pos_right (by omega) hstep
  simp only [counted]
  omega

/-- A key that fits is where the counter is. -/
theorem toInt_counterKey (hstep : 0 < step.toInt) (hfits : counted first step n ≤ Signed.greatest) :
    (counterKey first step n).toInt = counted first step n := by
  have hlow := first.le_toInt
  have hle := le_counted first hstep n
  unfold Signed.greatest at hfits
  exact Int64.toInt_ofInt_of_le (by omega) (by omega)

/-- **The first key that does not fit is smaller than the one before.** -/
theorem toInt_counterKey_succ_lt (hstep : 0 < step.toInt)
    (hfits : counted first step n ≤ Signed.greatest)
    (hpast : Signed.greatest < counted first step (n + 1)) :
    (counterKey first step (n + 1)).toInt < (counterKey first step n).toInt := by
  have hstep' := step.toInt_lt
  have hkey := toInt_counterKey hstep hfits
  have hsucc := counted_succ first step n
  unfold Signed.greatest at hfits hpast
  -- what is left of the integer is the one 2^64 below it
  have hcut : counterKey first step (n + 1) =
      Int64.ofInt (counted first step (n + 1) - 18446744073709551616) :=
    Signed.ofInt_eq_iff.2 ⟨1, by omega⟩
  rw [hcut, Int64.toInt_ofInt_of_le (by omega) (by omega)]
  omega

/-- **The keys of a counter increase exactly while all of them fit.** -/
theorem increasing_iff (hstep : 0 < step.toInt) :
    ((List.range n).map (counterKey first step)).Pairwise (fun a b => a.toInt < b.toInt) ↔
      ∀ i < n, counted first step i ≤ Signed.greatest := by
  rw [List.pairwise_map]
  constructor
  · intro h i hi
    induction i with
    | zero =>
        rw [counted_zero]
        exact (Signed.toInt_fits first).2
    | succ i ih =>
        have hfits := ih (by omega)
        by_contra hpast
        have hfalls := toInt_counterKey_succ_lt hstep hfits (by omega)
        have hrises := List.pairwise_iff_getElem.1 h i (i + 1) (by simp; omega) (by simpa using hi)
          (by omega)
        simp only [List.getElem_range] at hrises
        omega
  · intro h
    refine List.pairwise_lt_range.imp_of_mem fun {i j} hi hj hij => ?_
    rw [toInt_counterKey hstep (h i (List.mem_range.1 hi)),
      toInt_counterKey hstep (h j (List.mem_range.1 hj))]
    exact counted_lt hstep hij

/-- **A key is given out again** when the steps between the two calls make up a multiple of
2^64. -/
theorem counterKey_eq_iff (first step : Int64) (i j : Nat) :
    counterKey first step i = counterKey first step j ↔
      (18446744073709551616 : Int) ∣ ((i : Int) - j) * step.toInt := by
  have hdiff : counted first step i - counted first step j = ((i : Int) - j) * step.toInt := by
    simp only [counted]
    ring
  rw [counterKey, counterKey, Signed.ofInt_eq_iff, hdiff]

/-! ### Every counter -/

/-- **What every counter does that is made.**  All calls succeed.  The keys increase exactly while
all of them fit, and two of them are the same exactly when the steps between them make up a multiple
of 2^64. -/
theorem increment_spec {props : Properties} {g : KeyGenerator}
    (h : KeyGeneratorType.increment.make props = .ok g) :
    ∃ first step : Int64,
      KeyGeneratorType.intProperty props "initial-value" 1 = .ok first ∧
      KeyGeneratorType.intProperty props "step" 1 = .ok step ∧ 0 < step.toInt ∧
      ∀ (readings : Readings) (n : Nat),
        g.outcomes readings n = (List.range n).map (fun i => .ok (.int (counterKey first step i))) ∧
        (((g.outcomes readings n).filterMap key?).Pairwise (fun a b => a.toInt < b.toInt) ↔
          ∀ i < n, first.toInt + i * step.toInt ≤ Signed.greatest) ∧
        ∀ i j, counterKey first step i = counterKey first step j ↔
          (18446744073709551616 : Int) ∣ ((i : Int) - j) * step.toInt := by
  obtain ⟨first, step, hfirst, hstep, hpos, rfl⟩ := KeyGeneratorType.make_increment_eq_ok.1 h
  refine ⟨first, step, hfirst, hstep, hpos, fun readings n => ⟨outcomes_increment .., ?_,
    counterKey_eq_iff first step⟩⟩
  rw [filterMap_key?_increment]
  exact increasing_iff hpos

/-- Readings that a counter leaves alone. -/
def still : Readings := { clock := ⟨[], 0⟩ }

/-- The properties of a counter whose third key is the greatest integer. -/
def nearTheEnd : Properties := ⟨[("initial-value", "9223372036854775797"), ("step", " 5 ")]⟩

/-- Its first three keys increase, and the first four do not. -/
theorem increment_spec_nearTheEnd :
    KeyGeneratorType.increment.make nearTheEnd = .ok (.increment 9223372036854775797 5) ∧
      (((increment 9223372036854775797 5).outcomes still 3).filterMap key?).Pairwise
        (fun a b => a.toInt < b.toInt) ∧
      ¬ (((increment 9223372036854775797 5).outcomes still 4).filterMap key?).Pairwise
        (fun a b => a.toInt < b.toInt) := by
  have hmake : KeyGeneratorType.increment.make nearTheEnd =
      .ok (.increment 9223372036854775797 5) := by decide +kernel
  obtain ⟨first, step, hfirst, hstep, -, hcalls⟩ := increment_spec hmake
  cases hfirst
  cases hstep
  refine ⟨hmake, (hcalls still 3).2.1.2 (by decide), fun h => ?_⟩
  exact absurd ((hcalls still 4).2.1.1 h) (by decide)

/-- **The keys of a counter go back**: behind the greatest integer comes the least one. -/
theorem increment_goes_back :
    (increment 9223372036854775807 1).outcomes still 2 =
        [.ok (.int 9223372036854775807), .ok (.int (-9223372036854775808))] ∧
      ¬ ∀ (props : Properties) (g : KeyGenerator), KeyGeneratorType.increment.make props = .ok g →
        ∀ (readings : Readings) (n : Nat),
          ((g.outcomes readings n).filterMap key?).Pairwise fun a b => a.toInt < b.toInt := by
  refine ⟨rfl, fun hall => ?_⟩
  have hmake : KeyGeneratorType.increment.make ⟨[("initial-value", "9223372036854775807")]⟩ =
      .ok (.increment 9223372036854775807 1) := by decide +kernel
  exact absurd (hall _ _ hmake still 2) (by decide)

end KeyGenerator

end ShardedSql
