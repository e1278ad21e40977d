/-
**Sharding algorithms: which target a value belongs to.**

A target is a data source or an actual table, and its number is the one that its name ends in.  An
algorithm computes a number from a value, and for a range it picks every target that may hold a
value of the range.

Main definitions:

* `ShardedSql.Algorithm` — the five built-in algorithms with their settings;
* `ShardedSql.targetNumber?` — the number of a target;
* `ShardedSql.Algorithm.number` — the number that a value belongs to;
* `ShardedSql.Algorithm.target`, `ShardedSql.Algorithm.rangeTargets` — the target of a value, and
  the targets of a range;
* `ShardedSql.AlgorithmType.make` — an algorithm from its properties.

Main results:

* `ShardedSql.rangeTargets_subset` — **only available targets are picked**.
-/

import ShardedSql.Config
import ShardedSql.Range
import ShardedSql.Digest.Crc32

set_option relaxedAutoImplicit false
set_option autoImplicit false

namespace ShardedSql

/-! ### Targets -/

/-- The number that a name ends in, when it fits a word of 64 bits. -/
def targetNumber? (name : String) : Option Nat :=
  let digits := (name.toList.reverse.takeWhile Text.isDigit).reverse
  if digits.isEmpty then none
  else (Text.readDigits Text.maxUInt64 .tooLarge 0 digits).toOption

/-- The first target with a number. -/
def findTarget? (available : List String) (number : Nat) : Option String :=
  available.find? fun name => targetNumber? name = some number

/-! ### Algorithms -/

/-- A value of a column of a table, for which a target is wanted. -/
structure ShardingPoint where
  table : String
  column : String
  value : Value
  deriving Repr

/-- A way to choose targets by value. -/
inductive Algorithm where
  /-- The remainder of an integer. -/
  | mod (count : Nat)
  /-- The remainder of a hash. -/
  | hashMod (count : Nat)
  /-- The remainder of a checksum. -/
  | crc32Mod (count : Nat)
  /-- Intervals of equal length: `cuts` are the least integers of all intervals but the first. -/
  | volumeRange (cuts : List Int)
  /-- Intervals between given integers. -/
  | boundaryRange (cuts : List Int)
  deriving Repr, DecidableEq

/-- The types of algorithm. -/
inductive AlgorithmType where
  | mod
  | hashMod
  | crc32Mod
  | volumeRange
  | boundaryRange
  deriving Repr, DecidableEq

/-- The name of a type of algorithm. -/
def AlgorithmType.name : AlgorithmType → String
  | .mod => "MOD"
  | .hashMod => "HASH_MOD"
  | .crc32Mod => "CRC32_MOD"
  | .volumeRange => "VOLUME_RANGE"
  | .boundaryRange => "BOUNDARY_RANGE"

namespace Algorithm

/-- The type of an algorithm. -/
def type : Algorithm → AlgorithmType
  | .mod _ => .mod
  | .hashMod _ => .hashMod
  | .crc32Mod _ => .crc32Mod
  | .volumeRange _ => .volumeRange
  | .boundaryRange _ => .boundaryRange

/-- The divisor of an integer: the count as a signed word, without its sign. -/
def divisor (count : Nat) : Nat :=
  if count ≤ Text.maxInt64 then count else Text.maxUInt64 + 1 - count

/-- The interval that an integer falls into: how many cuts do not exceed it. -/
def interval (cuts : List Int) (v : Int) : Nat := cuts.countP fun cut => cut ≤ v

/-- The number of the target that a value belongs to. -/
def number (a : Algorithm) (v : Value) : Outcome Nat :=
  match a with
  | .mod count => v.toInt.map fun n => (n.toInt % (divisor count : Int)).toNat
  | .hashMod count => .ok (v.hash % count)
  | .crc32Mod count => .ok ((Digest.crc32 v.canonicalBytes).toNat % count)
  | .volumeRange cuts => v.toInt.map fun n => interval cuts n.toInt
  | .boundaryRange cuts => v.toInt.map fun n => interval cuts n.toInt

/-- The fault of a value for which there is no target. -/
def noTarget (a : Algorithm) (p : ShardingPoint) (number : Nat) : Fault :=
  (Fault.algorithm "Sharding failure, cannot find target for sharding value")
    |>.note "algorithm" a.type.name
    |>.note "table" p.table
    |>.note "column" p.column
    |>.note "value" p.value.render
    |>.note "target_index" (toString number)

/-- The target that a value belongs to. -/
def target (a : Algorithm) (available : List String) (p : ShardingPoint) : Outcome String := do
  let number ← a.number p.value
  match findTarget? available number with
  | some name => pure name
  | none => throw (a.noTarget p number)

/-! ### Ranges -/

/-- The targets whose number has a property. -/
def targetsWith (available : List String) (p : Nat → Bool) : List String :=
  available.filter fun name => (targetNumber? name).any p

/-- Whether some integer from `lower` to `upper` leaves the remainder `r`. -/
def leavesRemainder (divisor : Nat) (lower upper : Int) (r : Nat) : Bool :=
  r < divisor && ((r : Int) - lower) % divisor ≤ upper - lower

/-- The targets of a range under the remainder of integers.  A range without two bounds that stand
for integers, or as long as the count, may hold every remainder. -/
def modRangeTargets (count : Nat) (available : List String) (r : Range) : List String :=
  match r.closedInts? with
  | none => available
  | some (lower, upper) =>
      if lower.toInt > upper.toInt then []
      else if upper.toInt - lower.toInt ≥ (count : Int) - 1 then available
      else
        targetsWith available
          (leavesRemainder (divisor count) lower.toInt upper.toInt)

/-- The least integer that a lower bound admits, held within 64 bits. -/
def lowerInt : Bound → Outcome (Option Int)
  | .inclusive v => v.toInt.map fun n => some n.toInt
  | .exclusive v => v.toInt.map fun n => some (Signed.held (n.toInt + 1))
  | .unbounded => .ok none

/-- The largest integer that an upper bound admits, held within 64 bits. -/
def upperInt : Bound → Outcome (Option Int)
  | .inclusive v => v.toInt.map fun n => some n.toInt
  | .exclusive v => v.toInt.map fun n => some (Signed.held (n.toInt - 1))
  | .unbounded => .ok none

/-- The targets of a range under intervals: those from the interval of the least integer to that
of the largest. -/
def intervalRangeTargets (cuts : List Int) (available : List String) (r : Range) :
    Outcome (List String) := do
  let lower ← lowerInt r.lower
  let upper ← upperInt r.upper
  let first := (lower.map (interval cuts)).getD 0
  let last := (upper.map (interval cuts)).getD cuts.length
  pure (targetsWith available fun n => first ≤ n && n ≤ last)

/-- Every target that may hold a value of the range. -/
def rangeTargets (a : Algorithm) (available : List String) (r : Range) : Outcome (List String) :=
  match a with
  | .mod count => .ok (modRangeTargets count available r)
  | .hashMod _ => .ok available
  | .crc32Mod _ => .ok available
  | .volumeRange cuts => intervalRangeTargets cuts available r
  | .boundaryRange cuts => intervalRangeTargets cuts available r

end Algorithm

theorem mem_of_mem_targetsWith {available : List String} {p : Nat → Bool} {name : String}
    (h : name ∈ Algorithm.targetsWith available p) : name ∈ available :=
  (List.mem_filter.1 h).1

theorem mem_of_mem_modRangeTargets {count : Nat} {available : List String} {r : Range}
    {name : String} (h : name ∈ Algorithm.modRangeTargets count available r) :
    name ∈ available := by
  simp only [Algorithm.modRangeTargets] at h
  split at h
  · exact h
  · split at h
    · simp at h
    · split at h
      · exact h
      · exact mem_of_mem_targetsWith h

theorem mem_of_mem_intervalRangeTargets {cuts : List Int} {available names : List String}
    {r : Range} (h : Algorithm.intervalRangeTargets cuts available r = .ok names) :
    ∀ name ∈ names, name ∈ available := by
  simp only [Algorithm.intervalRangeTargets, bind, Except.bind, pure, Except.pure] at h
  split at h
  · cases h
  · split at h
    · cases h
    · cases h
      exact fun _ => mem_of_mem_targetsWith

theorem rangeTargets_subset {a : Algorithm} {available names : List String} {r : Range}
    (h : a.rangeTargets available r = .ok names) : ∀ name ∈ names, name ∈ available := by
  cases a with
  | mod count =>
      cases h
      exact fun _ => mem_of_mem_modRangeTargets
  | hashMod count =>
      cases h
      exact fun _ hn => hn
  | crc32Mod count =>
      cases h
      exact fun _ hn => hn
  | volumeRange cuts => exact mem_of_mem_intervalRangeTargets h
  | boundaryRange cuts => exact mem_of_mem_intervalRangeTargets h

/-! ### Making -/

namespace AlgorithmType

/-- A property that has to be there. -/
def property (t : AlgorithmType) (props : Properties) (key : String) : Outcome String :=
  match props.get? key with
  | some v => .ok v
  | none =>
      .error ((Fault.config "Missing required algorithm property")
        |>.note "algorithm" t.name |>.note "property" key)

/-- An integer between white space. -/
def readSigned (s : String) : Outcome Int64 :=
  match Text.readInt64 (Text.trim s) with
  | .ok n => .ok n
  | .error e => .error (Fault.unreadableInteger e.text)

/-- A number without a sign between white space. -/
def readUnsigned (s : String) : Outcome Nat :=
  match Text.readUInt64 (Text.trim s) with
  | .ok n => .ok n.toNat
  | .error e => .error (Fault.unreadableInteger e.text)

/-- A property that is a number above zero. -/
def positiveProperty (t : AlgorithmType) (props : Properties) (key : String) : Outcome Nat := do
  let n ← readUnsigned (← t.property props key)
  if n = 0 then
    throw ((Fault.config "Algorithm property must be greater than zero")
      |>.note "algorithm" t.name |>.note "property" key)
  pure n

/-- The number of divisors that the remainders are taken by. -/
def countProperty (t : AlgorithmType) (props : Properties) : Outcome Nat :=
  t.positiveProperty props "sharding-count"

/-- The cut that comes after a cut, held within 64 bits. -/
def nextCut (volume : Nat) (cut : Int) : Int := Signed.held (cut + volume)

theorem lt_nextCut {volume : Nat} {cut : Int} {upper : Int64} (hvolume : 0 < volume)
    (h : cut < upper.toInt) : cut < nextCut volume cut := by
  have hfits := Signed.toInt_fits upper
  simp only [nextCut, Signed.held]
  omega

/-- The cuts of intervals of equal length: from `cut` in steps of `volume` as long as they are
below `upper`, and then `upper`.  This is for volumes below 2^63.  A greater one is no integer of
64 bits with a sign: cut to one it leads downwards, where the cuts do not end.  Here it is taken as
it is, and nothing is said of it. -/
def volumeCuts (upper : Int64) (volume : Nat) (cut : Int) : List Int :=
  if _ : 0 < volume ∧ cut < upper.toInt then
    cut :: volumeCuts upper volume (nextCut volume cut)
  else [upper.toInt]
termination_by (upper.toInt - cut).toNat
decreasing_by
  obtain ⟨hvolume, hlt⟩ := ‹0 < volume ∧ cut < upper.toInt›
  have hnext := lt_nextCut hvolume hlt
  omega

/-- Intervals of equal length between two integers. -/
def makeVolumeRange (props : Properties) : Outcome Algorithm := do
  let lower ← readSigned (← volumeRange.property props "range-lower")
  let upper ← readSigned (← volumeRange.property props "range-upper")
  let volume ← volumeRange.positiveProperty props "sharding-volume"
  if lower.toInt ≥ upper.toInt then
    throw ((Fault.config "Range lower must be less than range upper")
      |>.note "algorithm" volumeRange.name
      |>.note "range-lower" (toString lower.toInt)
      |>.note "range-upper" (toString upper.toInt))
  pure (.volumeRange (volumeCuts upper volume lower.toInt))

/-- An integer before others, unless it is the first of them already. -/
def consNew (c : Int) (rest : List Int) : List Int :=
  if rest.head? = some c then rest else c :: rest

/-- The integers in order, each once. -/
def sortedDistinct (cuts : List Int) : List Int :=
  (cuts.mergeSort fun a b => a ≤ b).foldr consNew []

/-- The integers of a list separated by commas, where empty items are passed over. -/
def readCuts (s : String) : Outcome (List Int64) :=
  let items := (s.toList.splitOn ',').map fun cs => String.ofList (Text.trimChars cs)
  (items.filter fun s => s ≠ "").mapM readSigned

/-- Intervals between given integers. -/
def makeBoundaryRange (props : Properties) : Outcome Algorithm := do
  let cuts ← readCuts (← boundaryRange.property props "sharding-ranges")
  if cuts.isEmpty then
    throw ((Fault.config "Sharding ranges cannot be empty").note "algorithm" boundaryRange.name)
  pure (.boundaryRange (sortedDistinct (cuts.map Int64.toInt)))

/-- The algorithm of a type with some properties. -/
def make (t : AlgorithmType) (props : Properties) : Outcome Algorithm :=
  match t with
  | .mod => (t.countProperty props).map .mod
  | .hashMod => (t.countProperty props).map .hashMod
  | .crc32Mod => (t.countProperty props).map .crc32Mod
  | .volumeRange => makeVolumeRange props
  | .boundaryRange => makeBoundaryRange props

end AlgorithmType

end ShardedSql
