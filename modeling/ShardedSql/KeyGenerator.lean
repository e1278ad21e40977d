/-
**Key generators for columns that the kernel fills in.**

A generator is a state that yields one key after another.  A time-ordered key packs the milliseconds
since an epoch, the number of the worker and a sequence number within the millisecond into one
integer.  An identifier is a random number, and a counter reads nothing from outside.

Main definitions:

* `ShardedSql.Snowflake` — the state of a generator of time-ordered keys;
* `ShardedSql.KeyGenerator` — the three generators;
* `ShardedSql.KeyGenerator.identifier` — the identifier that a random number makes;
* `ShardedSql.KeyGenerator.next` — the next key, and the generator and the readings after it;
* `ShardedSql.KeyGeneratorType.make` — a generator from its properties.

Main results:

* `ShardedSql.Snowflake.state_of_error` — **a failing call leaves the generator as it was**;
* `ShardedSql.KeyGenerator.length_identifier`, `ShardedSql.KeyGenerator.identifier_marks` — every
  random number makes 32 digits, and **two of them tell version and variant**.
-/

import ShardedSql.Config
import ShardedSql.Readings
import ShardedSql.Value
import ShardedSql.Text.Hex

set_option relaxedAutoImplicit false
set_option autoImplicit false

namespace ShardedSql

/-! ### Time-ordered keys -/

/-- The state of a generator of time-ordered keys. -/
structure Snowflake where
  /-- The number of the worker, below 1024. -/
  worker : Int
  /-- How many milliseconds the clock may go back. -/
  tolerance : Int
  /-- The millisecond of the last key. -/
  last : Int := 0
  /-- The sequence number of the last key. -/
  sequence : Int := 0
  deriving Repr, DecidableEq, Inhabited

namespace Snowflake

/-- The first millisecond: the beginning of November 2016. -/
def epoch : Int := 1477958400000

/-- How many sequence numbers a millisecond has. -/
def sequences : Int := 4096

/-- The largest number of a worker. -/
def maxWorker : Int := 1023

/-- The key of a millisecond, a worker and a sequence number. -/
def key (ms worker sequence : Int) : Int64 :=
  Int64.ofInt ((ms - epoch) * 4194304 + worker * 4096 + sequence)

/-- A reading that is not before the last key, after waiting if the clock has gone back a little. -/
def settle (s : Snowflake) (clock : Clock) : Outcome Int × Clock :=
  let (now, clock) := clock.read
  if now < s.last then
    if s.last - now > s.tolerance then
      (.error ((Fault.internal "Clock moved backwards beyond tolerance")
        |>.note "last_ms" (toString s.last)
        |>.note "now_ms" (toString now)
        |>.note "tolerance_ms" (toString s.tolerance)), clock)
    else
      let (now, clock) := clock.read
      if now < s.last then
        (.error ((Fault.internal "Clock still behind after waiting")
          |>.note "last_ms" (toString s.last)
          |>.note "now_ms" (toString now)), clock)
      else (.ok now, clock)
  else (.ok now, clock)

/-- The state after the next key, given a reading that is not before the last one.  When the
sequence numbers of a millisecond are used up the next one is waited for. -/
def advance (s : Snowflake) (now : Int) (clock : Clock) : Snowflake × Clock :=
  if now = s.last then
    let sequence := (s.sequence + 1) % sequences
    if sequence = 0 then
      let (now, clock) := clock.readAfter s.last
      ({ s with last := now, sequence := 0 }, clock)
    else ({ s with sequence := sequence }, clock)
  else ({ s with last := now, sequence := 0 }, clock)

/-- The next key, the state after it and the clock after it. -/
def next (s : Snowflake) (clock : Clock) : Outcome Int64 × Snowflake × Clock :=
  match s.settle clock with
  | (.error f, clock) => (.error f, s, clock)
  | (.ok now, clock) =>
      let (s, clock) := s.advance now clock
      (.ok (key s.last s.worker s.sequence), s, clock)

theorem state_of_error {s : Snowflake} {clock : Clock} {f : Fault}
    (h : (s.next clock).1 = .error f) : (s.next clock).2.1 = s := by
  simp only [next] at h ⊢
  split
  · rfl
  · rename_i heq
    simp [heq] at h

end Snowflake

/-! ### Generators -/

/-- A source of keys. -/
inductive KeyGenerator where
  /-- Time-ordered integers. -/
  | snowflake (s : Snowflake)
  /-- Random identifiers of 32 hexadecimal digits. -/
  | uuid
  /-- A counter that wraps at 64 bits. -/
  | increment (next step : Int64)
  deriving Repr, DecidableEq

/-- The types of key generator. -/
inductive KeyGeneratorType where
  | snowflake
  | uuid
  | increment
  deriving Repr, DecidableEq

/-- The name of a type of key generator. -/
def KeyGeneratorType.name : KeyGeneratorType → String
  | .snowflake => "SNOWFLAKE"
  | .uuid => "UUID"
  | .increment => "INCREMENT"

namespace KeyGenerator

/-- The type of a generator. -/
def type : KeyGenerator → KeyGeneratorType
  | .snowflake _ => .snowflake
  | .uuid => .uuid
  | .increment _ _ => .increment

/-- The bytes of the identifier that a random number makes: its 16 lowest ones, with the mark of
version 4 in the high half of byte 6 and that of the variant in the two highest bits of byte 8. -/
def identifierBytes (n : Nat) : List UInt8 :=
  (List.range 16).map fun i =>
    let byte := UInt8.ofNat (n >>> (8 * (15 - i)))
    if i = 6 then byte &&& 0x0f ||| 0x40
    else if i = 8 then byte &&& 0x3f ||| 0x80
    else byte

/-- The identifier that a random number makes. -/
def identifier (n : Nat) : String := Text.hexLower (identifierBytes n)

theorem length_identifier (n : Nat) : (identifier n).length = 32 := by
  rw [identifier, Text.hexLower, String.length_ofList, Text.hexChars_length, identifierBytes,
    List.length_map, List.length_range]

theorem version_mark (byte : UInt8) : (byte &&& 0x0f ||| 0x40).toNat / 16 = 4 := by
  have h : ∀ k < 256, (UInt8.ofNat k &&& 0x0f ||| 0x40).toNat / 16 = 4 := by decide +kernel
  simpa using h byte.toNat byte.toNat_lt

theorem variant_mark (byte : UInt8) :
    8 ≤ (byte &&& 0x3f ||| 0x80).toNat / 16 ∧ (byte &&& 0x3f ||| 0x80).toNat / 16 < 12 := by
  have h : ∀ k < 256, 8 ≤ (UInt8.ofNat k &&& 0x3f ||| 0x80).toNat / 16 ∧
      (UInt8.ofNat k &&& 0x3f ||| 0x80).toNat / 16 < 12 := by decide +kernel
  simpa using h byte.toNat byte.toNat_lt

/-- **Every identifier has the marks**: digit 12 is 4, and digit 16 one of 8, 9, a and b. -/
theorem identifier_marks (n : Nat) :
    (identifier n).toList[12]? = some '4' ∧
      ∃ k, 8 ≤ k ∧ k < 12 ∧ (identifier n).toList[16]? = some (Text.hexDigit 'a' k) := by
  rw [identifier, Text.hexLower, String.toList_ofList]
  constructor
  · exact congrArg (fun k => some (Text.hexDigit 'a' k)) (version_mark (UInt8.ofNat (n >>> 72)))
  · obtain ⟨hlow, hhigh⟩ := variant_mark (UInt8.ofNat (n >>> 56))
    exact ⟨_, hlow, hhigh, rfl⟩

example : identifier 0xffffffffffffffffffffffffffffffff = "ffffffffffff4fffbfffffffffffffff" := by
  decide +kernel

/-- The next key, and the generator and the readings after it. -/
def next (g : KeyGenerator) (readings : Readings) : Outcome Value × KeyGenerator × Readings :=
  match g with
  | .snowflake s =>
      let (key, s, clock) := s.next readings.clock
      (key.map .int, .snowflake s, { readings with clock := clock })
  | .uuid =>
      let (n, draws) := readings.draws.draw
      (.ok (.text (identifier n)), .uuid, { readings with draws := draws })
  | .increment n step => (.ok (.int n), .increment (n + step) step, readings)

@[simp] theorem next_increment (n step : Int64) (readings : Readings) :
    (increment n step).next readings = (.ok (.int n), increment (n + step) step, readings) := rfl

end KeyGenerator

/-! ### Making -/

namespace KeyGeneratorType

/-- A property that is an integer, with a value of its own when it is absent. -/
def intProperty (props : Properties) (key : String) (absent : Int64) : Outcome Int64 :=
  match props.get? key with
  | none => .ok absent
  | some s =>
      match Text.readInt64 (Text.trim s) with
      | .ok n => .ok n
      | .error e => .error (Fault.unreadableInteger e.text)

/-- A generator of time-ordered keys. -/
def makeSnowflake (props : Properties) : Outcome Snowflake := do
  let worker ← intProperty props "worker-id" 0
  if worker.toInt < 0 ∨ Snowflake.maxWorker < worker.toInt then
    throw ((Fault.config "Snowflake worker id out of range")
      |>.note "worker-id" (toString worker.toInt)
      |>.note "max" (toString Snowflake.maxWorker))
  let tolerance ← intProperty props "max-tolerate-time-difference-milliseconds" 10
  pure { worker := worker.toInt, tolerance := tolerance.toInt }

/-- A counter. -/
def makeIncrement (props : Properties) : Outcome KeyGenerator := do
  let first ← intProperty props "initial-value" 1
  let step ← intProperty props "step" 1
  if step.toInt ≤ 0 then
    throw ((Fault.config "Increment step must be positive").note "step" (toString step.toInt))
  pure (.increment first step)

/-- The generator of a type with some properties. -/
def make (t : KeyGeneratorType) (props : Properties) : Outcome KeyGenerator :=
  match t with
  | .snowflake => (makeSnowflake props).map .snowflake
  | .uuid => .ok .uuid
  | .increment => makeIncrement props

end KeyGeneratorType

end ShardedSql
