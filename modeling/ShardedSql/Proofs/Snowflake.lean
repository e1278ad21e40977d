/-
**Time-ordered keys increase, whatever the clock does.**

A generator is asked for one key after another while its clock goes on, stands still or goes back.
A call that succeeds moves the generator on: to a later millisecond, where the sequence begins
again, or to the next number of the sequence in the same millisecond; when the numbers of a
millisecond are used up the next millisecond is waited for.  A call that fails leaves it where it
was.  So the millisecond and the sequence number together never fall back, and as the number of the
worker stays what it is the keys increase with them.

That the keys do not wrap needs the readings to lie in the 2^41 milliseconds after the epoch.  It is
enough to ask this of the last reading of each call, as readings that are passed over, and those of
calls that fail, are in no key.

Main definitions:

* `ShardedSql.Snowflake.Call` — one call of a generator with all that it saw and left;
* `ShardedSql.Snowflake.calls` — so many calls, one after another;
* `ShardedSql.Snowflake.Advances` — **how a call that succeeds moves a generator on**;
* `ShardedSql.Snowflake.IsMadeOf` — a key splits into a millisecond, a worker and a number.

Main results:

* `ShardedSql.Snowflake.next_eq_ok` — a call that succeeds moves the generator on, and gives the key
  of the state that it leaves;
* `ShardedSql.Snowflake.serial_lt` — a generator that moves on has a larger key;
* `ShardedSql.Snowflake.keys_increase` — **the keys of all calls increase, each of them is made of
  the millisecond of its call, and calls that fail change nothing**.
-/

import ShardedSql.KeyGenerator

set_option relaxedAutoImplicit false
set_option autoImplicit false

namespace ShardedSql

/-! ### Readings -/

namespace Clock

@[simp] theorem previous_read (c : Clock) : c.read.2.previous = c.read.1 := by
  unfold read
  split <;> rfl

/-- The runs that are left after those up to a millisecond begin with a later reading. -/
theorem lt_of_readRuns?_dropWhile {runs rest : List (Int × Nat)} (hlive : ∀ r ∈ runs, r.2 ≠ 0)
    {last ms : Int} (h : readRuns? (runs.dropWhile fun r => r.1 ≤ last) = some (ms, rest)) :
    last < ms := by
  induction runs with
  | nil => cases h
  | cons r runs ih =>
      obtain ⟨hr, hruns⟩ := List.forall_mem_cons.1 hlive
      obtain ⟨reading, count⟩ := r
      by_cases hle : reading ≤ last
      · rw [List.dropWhile_cons_of_pos (by simpa using hle)] at h
        exact ih hruns h
      · rw [List.dropWhile_cons_of_neg (by simpa using hle)] at h
        obtain ⟨n, rfl⟩ := Nat.exists_eq_succ_of_ne_zero hr
        cases h
        omega

/-- **What is waited for is later**, and it is the last reading. -/
theorem readAfter_spec (c : Clock) (last : Int) :
    last < (c.readAfter last).1 ∧ (c.readAfter last).2.previous = (c.readAfter last).1 := by
  unfold readAfter
  simp only
  split
  · rename_i ms runs h
    refine ⟨lt_of_readRuns?_dropWhile (fun r hr => ?_) h, rfl⟩
    simpa using (List.mem_filter.1 hr).2
  · refine ⟨?_, rfl⟩
    simp only
    omega

end Clock

namespace Snowflake

/-! ### One call -/

/-- How a call that succeeds moves a generator on: to a later millisecond, or to the next number in
the same one.  The millisecond is the last reading of the clock. -/
structure Advances (s s' : Snowflake) (clock : Clock) : Prop where
  worker : s'.worker = s.worker
  last : s'.last = clock.previous
  moved : (s.last < s'.last ∧ s'.sequence = 0) ∨
    (s'.last = s.last ∧ s'.sequence = s.sequence + 1 ∧ s'.sequence < sequences)

/-- A reading that is taken is not before the last key, and it is the last reading. -/
theorem settle_eq_ok {s : Snowflake} {clock clock' : Clock} {now : Int}
    (h : s.settle clock = (.ok now, clock')) : s.last ≤ now ∧ clock'.previous = now := by
  unfold settle at h
  simp only at h
  split at h
  · -- the clock has gone back
    split at h
    · cases h
    · split at h
      · cases h
      · cases h
        exact ⟨by omega, Clock.previous_read _⟩
  · cases h
    exact ⟨by omega, Clock.previous_read _⟩

theorem advance_spec {s : Snowflake} {now : Int} {clock : Clock} (hnow : s.last ≤ now)
    (hclock : clock.previous = now) (hsequence : 0 ≤ s.sequence ∧ s.sequence < sequences) :
    s.Advances (s.advance now clock).1 (s.advance now clock).2 := by
  unfold advance
  split
  · rename_i hsame
    simp only
    split
    · -- the numbers of the millisecond are used up
      obtain ⟨hlater, hprevious⟩ := clock.readAfter_spec s.last
      exact ⟨rfl, hprevious.symm, .inl ⟨hlater, rfl⟩⟩
    · rename_i hleft
      refine ⟨rfl, ?_, .inr ⟨rfl, ?_, ?_⟩⟩
      · simp only
        omega
      · simp only [sequences] at hsequence hleft ⊢
        omega
      · simp only [sequences]
        omega
  · exact ⟨rfl, hclock.symm, .inl ⟨by simp only; omega, rfl⟩⟩

/-- **A call that succeeds moves the generator on, and gives the key of the state that it
leaves.** -/
theorem next_eq_ok {s s' : Snowflake} {clock clock' : Clock} {k : Int64}
    (hsequence : 0 ≤ s.sequence ∧ s.sequence < sequences)
    (h : s.next clock = (.ok k, s', clock')) :
    s.Advances s' clock' ∧ k = key s'.last s'.worker s'.sequence := by
  unfold next at h
  split at h
  · cases h
  · rename_i now settled hsettle
    obtain ⟨hnow, hprevious⟩ := settle_eq_ok hsettle
    have hadvances := advance_spec hnow hprevious hsequence
    cases h
    exact ⟨hadvances, rfl⟩

/-! ### Keys as integers -/

/-- A reading whose distance from the epoch a key has room for. -/
def InRange (ms : Int) : Prop := epoch ≤ ms ∧ ms < epoch + 2199023255552

/-- The key of a state, before it is cut to 64 bits. -/
def serial (s : Snowflake) : Int := (s.last - epoch) * 4194304 + s.worker * 4096 + s.sequence

/-- The number of the worker and the sequence number have room in a key. -/
structure Fits (s : Snowflake) : Prop where
  worker : 0 ≤ s.worker ∧ s.worker ≤ maxWorker
  sequence : 0 ≤ s.sequence ∧ s.sequence < sequences

theorem Advances.fits {s s' : Snowflake} {clock : Clock} (h : s.Advances s' clock)
    (hs : s.Fits) : s'.Fits := by
  refine ⟨h.worker ▸ hs.worker, ?_⟩
  have hsequence := hs.sequence
  rcases h.moved with ⟨-, hzero⟩ | ⟨-, hnext, hlt⟩
  · rw [hzero]
    decide
  · exact ⟨by omega, hlt⟩

/-- **A generator that moves on has a larger key.**  A later millisecond outweighs any number that
its sequence has reached. -/
theorem serial_lt {s s' : Snowflake} {clock : Clock} (hs : s.Fits) (h : s.Advances s' clock) :
    s.serial < s'.serial := by
  obtain ⟨-, hsequence⟩ := hs
  simp only [sequences] at hsequence
  unfold serial
  rw [h.worker]
  rcases h.moved with ⟨hlater, hzero⟩ | ⟨hsame, hnext, -⟩
  · omega
  · omega

/-- A key splits into a millisecond, the number of a worker and a sequence number. -/
structure IsMadeOf (k : Int64) (ms worker sequence : Int) : Prop where
  millisecond : k.toInt / 4194304 + epoch = ms
  worker : k.toInt / 4096 % 1024 = worker
  sequence : k.toInt % 4096 = sequence

/-- In range a key is not cut, and its parts can be read off. -/
theorem Fits.key_spec {s : Snowflake} (h : s.Fits) (hlast : InRange s.last) :
    (key s.last s.worker s.sequence).toInt = s.serial ∧
      IsMadeOf (key s.last s.worker s.sequence) s.last s.worker s.sequence := by
  obtain ⟨hworker, hsequence⟩ := h
  obtain ⟨hepoch, hbound⟩ := hlast
  simp only [maxWorker, sequences] at hworker hsequence
  have hkey : (key s.last s.worker s.sequence).toInt = s.serial := by
    unfold key serial
    exact Int64.toInt_ofInt_of_le (by omega) (by omega)
  refine ⟨hkey, ?_, ?_, ?_⟩ <;> rw [hkey, serial]
  · omega
  · omega
  · omega

/-- A generator that was not asked yet. -/
theorem fits_start {worker : Int} (h : 0 ≤ worker ∧ worker ≤ maxWorker) (tolerance : Int) :
    Fits { worker := worker, tolerance := tolerance } :=
  ⟨h, Int.le_refl 0, show (0 : Int) < 4096 by decide⟩

/-! ### All calls -/

/-- One call of a generator: the generator before it, the outcome, and what the call leaves. -/
structure Call where
  before : Snowflake
  outcome : Outcome Int64
  after : Snowflake
  /-- The clock after the call, whose previous reading is the last one that the call took. -/
  clock : Clock

/-- The key of a call that succeeded. -/
def Call.key? (c : Call) : Option Int64 := c.outcome.toOption

/-- So many calls of a generator, one after another. -/
def calls (s : Snowflake) (clock : Clock) : Nat → List Call
  | 0 => []
  | n + 1 =>
      let (outcome, s', clock') := s.next clock
      ⟨s, outcome, s', clock'⟩ :: calls s' clock' n

/-- What a generator and its clock make of one more call. -/
theorem calls_succ (s : Snowflake) (clock : Clock) (n : Nat) :
    s.calls clock (n + 1) =
      ⟨s, (s.next clock).1, (s.next clock).2.1, (s.next clock).2.2⟩ ::
        (s.next clock).2.1.calls (s.next clock).2.2 n := rfl

/-- What is said of a call: the parts of its key, or that it has changed nothing. -/
structure Call.IsSound (c : Call) : Prop where
  fits : c.before.Fits
  key : ∀ k, c.outcome = .ok k → c.before.serial < k.toInt ∧ c.after.Fits ∧
    k.toInt = c.after.serial ∧ IsMadeOf k c.clock.previous c.before.worker c.after.sequence
  unchanged : ∀ f, c.outcome = .error f → c.after = c.before

/-- **What one call does**: a key that is larger than that of the state before, or nothing. -/
theorem isSound_next {s : Snowflake} (hs : s.Fits) {clock : Clock}
    (hrange : InRange (s.next clock).2.2.previous) :
    Call.IsSound ⟨s, (s.next clock).1, (s.next clock).2.1, (s.next clock).2.2⟩ := by
  refine ⟨hs, fun k hk => ?_, fun f hf => state_of_error hf⟩
  obtain ⟨hadvances, rfl⟩ := next_eq_ok hs.sequence (Prod.ext hk rfl)
  have hfits := hadvances.fits hs
  have hlast : InRange (s.next clock).2.1.last := hadvances.last ▸ hrange
  obtain ⟨hserial, hmade⟩ := hfits.key_spec hlast
  refine ⟨?_, hfits, hserial, ?_⟩
  · rw [hserial]
    exact serial_lt hs hadvances
  · simp only
    rw [← hadvances.last, ← hadvances.worker]
    exact hmade

/-- Whatever comes of a call, the generator after it has room for its parts, keeps its worker and
has not fallen back. -/
theorem after_next {s : Snowflake} (hs : s.Fits) (clock : Clock) :
    (s.next clock).2.1.Fits ∧ (s.next clock).2.1.worker = s.worker ∧
      s.serial ≤ (s.next clock).2.1.serial := by
  cases hx : (s.next clock).1 with
  | error f =>
      rw [state_of_error hx]
      exact ⟨hs, rfl, Int.le_refl _⟩
  | ok k =>
      obtain ⟨hadvances, -⟩ := next_eq_ok hs.sequence (Prod.ext hx rfl)
      exact ⟨hadvances.fits hs, hadvances.worker, Int.le_of_lt (serial_lt hs hadvances)⟩

/-- **Every call of a run is sound**, and has the worker that the run began with. -/
theorem isSound_of_mem_calls {s : Snowflake} (hs : s.Fits) {clock : Clock} {n : Nat}
    (hrange : ∀ c ∈ s.calls clock n, InRange c.clock.previous) :
    ∀ c ∈ s.calls clock n, c.IsSound ∧ c.before.worker = s.worker := by
  induction n generalizing s clock with
  | zero => exact fun c hc => by cases hc
  | succ n ih =>
      rw [calls_succ] at hrange ⊢
      obtain ⟨hfirst, hrest⟩ := List.forall_mem_cons.1 hrange
      obtain ⟨hfits, hworker, -⟩ := after_next hs clock
      refine List.forall_mem_cons.2 ⟨⟨isSound_next hs hfirst, rfl⟩, fun c hc => ?_⟩
      obtain ⟨hsound, hsame⟩ := ih hfits hrest c hc
      exact ⟨hsound, hsame.trans hworker⟩

/-- All keys to come are larger than that of the state, and each is larger than those before. -/
theorem pairwise_keys {s : Snowflake} (hs : s.Fits) {clock : Clock} {n : Nat}
    (hrange : ∀ c ∈ s.calls clock n, InRange c.clock.previous) :
    (∀ k ∈ (s.calls clock n).filterMap Call.key?, s.serial < k.toInt) ∧
      ((s.calls clock n).filterMap Call.key?).Pairwise fun a b => a.toInt < b.toInt := by
  induction n generalizing s clock with
  | zero => exact ⟨fun k hk => (by cases hk), .nil⟩
  | succ n ih =>
      rw [calls_succ] at hrange ⊢
      obtain ⟨hfirst, hrest⟩ := List.forall_mem_cons.1 hrange
      obtain ⟨hfits, -, hle⟩ := after_next hs clock
      obtain ⟨hlater, hpairwise⟩ := ih hfits hrest
      have hsound := isSound_next hs hfirst
      cases hx : (s.next clock).1 with
      | error f =>
          rw [List.filterMap_cons_none (f := Call.key?) rfl]
          exact ⟨fun k hk => Int.lt_of_le_of_lt hle (hlater k hk), hpairwise⟩
      | ok k =>
          obtain ⟨hlt, -, hserial, -⟩ := hsound.key k hx
          simp only at hlt hserial
          rw [List.filterMap_cons_some (f := Call.key?) (b := k) rfl]
          refine ⟨List.forall_mem_cons.2 ⟨hlt, fun k' hk' => ?_⟩,
            .cons (fun k' hk' => ?_) hpairwise⟩
          · exact Int.lt_of_le_of_lt hle (hlater k' hk')
          · rw [hserial]
            exact hlater k' hk'

/-- **The keys of a generator increase, whatever its clock does**, as long as its readings are in
range.  Each key is made of the last reading of its call, the worker and a sequence number, and a
call that fails leaves the generator as it was. -/
theorem keys_increase {worker : Int} (hworker : 0 ≤ worker ∧ worker ≤ maxWorker) (tolerance : Int)
    (clock : Clock) (n : Nat)
    (hrange : ∀ c ∈ calls { worker := worker, tolerance := tolerance } clock n,
      InRange c.clock.previous) :
    (((calls { worker := worker, tolerance := tolerance } clock n).filterMap Call.key?).Pairwise
        fun a b => a.toInt < b.toInt) ∧
      ∀ c ∈ calls { worker := worker, tolerance := tolerance } clock n,
        (∀ k, c.outcome = .ok k → ∃ sequence, 0 ≤ sequence ∧ sequence < sequences ∧
          IsMadeOf k c.clock.previous worker sequence) ∧
        ∀ f, c.outcome = .error f → c.after = c.before := by
  have hfits := fits_start hworker tolerance
  refine ⟨(pairwise_keys hfits hrange).2, fun c hc => ?_⟩
  obtain ⟨hsound, hsame⟩ := isSound_of_mem_calls hfits hrange c hc
  refine ⟨fun k hk => ?_, hsound.unchanged⟩
  obtain ⟨-, hafter, -, hmade⟩ := hsound.key k hk
  obtain ⟨hnonneg, hlt⟩ := hafter.sequence
  rw [hsame] at hmade
  exact ⟨c.after.sequence, hnonneg, hlt, hmade⟩

/-- A clock that stands still, goes back a little, goes back too far, and goes on. -/
def jumpyClock : Clock :=
  ⟨[(epoch + 7, 2), (epoch + 4, 1), (epoch + 7, 1), (epoch + 1, 1), (epoch + 9, 1)], 0⟩

/-- Five calls on that clock: the third one waits, and the fourth one fails. -/
theorem keys_increase_jumpy :
    (∀ c ∈ calls { worker := 3, tolerance := 5 } jumpyClock 5, InRange c.clock.previous) ∧
      (calls { worker := 3, tolerance := 5 } jumpyClock 5).filterMap Call.key? =
        [29372416, 29372417, 29372418, 37761024] ∧
      ((calls { worker := 3, tolerance := 5 } jumpyClock 5).filterMap Call.key?).Pairwise
        fun a b => a.toInt < b.toInt := by
  have hrange : ∀ c ∈ calls { worker := 3, tolerance := 5 } jumpyClock 5,
      InRange c.clock.previous := by
    unfold InRange
    decide
  exact ⟨hrange, by decide, (keys_increase (by decide) 5 jumpyClock 5 hrange).1⟩

end Snowflake

end ShardedSql
