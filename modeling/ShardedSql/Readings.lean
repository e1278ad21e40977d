/-
**What is read from outside: a clock and random numbers.**

Neither is known in advance.  Both are given as what is still to be read, so that a computation that
reads them is a function of them.

Main definitions:

* `ShardedSql.Clock` — the readings of a clock to come;
* `ShardedSql.Clock.read`, `ShardedSql.Clock.readAfter` — the next of them, and the next one that is
  late enough;
* `ShardedSql.Draws` — the random numbers to come;
* `ShardedSql.Readings` — both of them.
-/

set_option relaxedAutoImplicit false
set_option autoImplicit false

namespace ShardedSql

/-! ### Clocks -/

/-- The readings of a clock to come, in milliseconds: each of `runs` is a reading with the number
of times it is still to be seen.  After them every reading is the one before it plus one. -/
structure Clock where
  /-- The readings to come and how often. -/
  runs : List (Int × Nat)
  /-- The last reading. -/
  previous : Int
  deriving Repr, DecidableEq, Inhabited

namespace Clock

/-- The next reading of some runs, and the runs after it. -/
def readRuns? : List (Int × Nat) → Option (Int × List (Int × Nat))
  | [] => none
  | (_, 0) :: rest => readRuns? rest
  | (ms, n + 1) :: rest => some (ms, (ms, n) :: rest)

/-- The next reading, and the clock after it. -/
def read (c : Clock) : Int × Clock :=
  match readRuns? c.runs with
  | some (ms, runs) => (ms, ⟨runs, ms⟩)
  | none => (c.previous + 1, ⟨[], c.previous + 1⟩)

/-- The first reading later than `last`, and the clock after it.  The readings before it are
passed over. -/
def readAfter (c : Clock) (last : Int) : Int × Clock :=
  let live := c.runs.filter fun r => r.2 ≠ 0
  match readRuns? (live.dropWhile fun r => r.1 ≤ last) with
  | some (ms, runs) => (ms, ⟨runs, ms⟩)
  | none =>
      let previous := (live.getLast?.map Prod.fst).getD c.previous
      let ms := max (previous + 1) (last + 1)
      (ms, ⟨[], ms⟩)

end Clock

/-! ### Random numbers -/

/-- The random numbers to come.  After them every number is zero. -/
structure Draws where
  numbers : List Nat := []
  deriving Repr, DecidableEq, Inhabited

/-- The next number, and the ones after it. -/
def Draws.draw (d : Draws) : Nat × Draws := (d.numbers.headD 0, ⟨d.numbers.tail⟩)

/-! ### Both -/

/-- What is still to be read. -/
structure Readings where
  clock : Clock
  draws : Draws := {}
  deriving Repr, DecidableEq, Inhabited

end ShardedSql
