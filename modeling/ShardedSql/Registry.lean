/-
**The registry: names for the types of extension.**

Names are looked up without regard to the case of ASCII letters, and a name once given stays as it
is.

Main definitions:

* `ShardedSql.Registry` — the names of algorithms, key generators, encryptors and balancers;
* `ShardedSql.Registry.builtin` — the registry in which every built-in type has its own name;
* `ShardedSql.Registry.algorithm` and its companions — an extension from its configuration;
* `ShardedSql.Registry.render` — the names, in order.

Main results:

* `ShardedSql.Registry.look_of_enter` — what a name stands for once another one was given;
* `ShardedSql.Registry.look_enter_of_ok` — **a name once given stays as it is**.
-/

import ShardedSql.Algorithm
import ShardedSql.Encryptor
import ShardedSql.KeyGenerator
import ShardedSql.Replica
import ShardedSql.Text.Quoted

set_option relaxedAutoImplicit false
set_option autoImplicit false

namespace ShardedSql

/-- The names of the types of extension, in capital letters. -/
structure Registry where
  algorithms : Dictionary AlgorithmType := {}
  keyGenerators : Dictionary KeyGeneratorType := {}
  encryptors : Dictionary EncryptorType := {}
  balancers : Dictionary Balancer := {}
  deriving Repr, Inhabited

namespace Registry

/-! ### Names -/

/-- Gives a name that is still free. -/
def enter {α : Type} (names : Dictionary α) (kind name : String) (value : α) :
    Outcome (Dictionary α) :=
  let key := Text.raiseCase name
  if names.contains key then
    .error ((Fault.config "Duplicate extension name") |>.note "kind" kind |>.note "name" key)
  else .ok (names.insert key value)

/-- What a name stands for. -/
def look {α : Type} (names : Dictionary α) (kind name : String) : Outcome α :=
  match names.get? (Text.raiseCase name) with
  | some value => .ok value
  | none =>
      .error ((Fault.config "Unknown extension type") |>.note "kind" kind |>.note "type" name)

section

variable {α : Type} {names names' : Dictionary α} {kind kind' name other : String} {value : α}

theorem enter_eq_ok : enter names kind name value = .ok names' ↔
    names.get? (Text.raiseCase name) = none ∧
      names' = names.insert (Text.raiseCase name) value := by
  cases hget : names.get? (Text.raiseCase name) with
  | none => simp [enter, Dictionary.contains, hget, eq_comm]
  | some _ => simp [enter, Dictionary.contains, hget]

/-- A name that was given stands for its value, and all others for what they did. -/
theorem look_of_enter (h : enter names kind name value = .ok names') :
    look names' kind' other =
      if Text.raiseCase other = Text.raiseCase name then .ok value else look names kind' other := by
  obtain ⟨-, rfl⟩ := enter_eq_ok.1 h
  split
  · rename_i hsame
    rw [look, hsame, Dictionary.get?_insert_self]
  · rename_i hother
    rw [look, Dictionary.get?_insert_of_ne _ _ _ _ hother]
    rfl

/-- **A name once given stays as it is.** -/
theorem look_enter_of_ok {found : α} (h : enter names kind name value = .ok names')
    (hfound : look names kind' other = .ok found) : look names' kind' other = .ok found := by
  obtain ⟨hfree, -⟩ := enter_eq_ok.1 h
  rw [look_of_enter h, if_neg ?_]
  · exact hfound
  · intro hsame
    rw [look, hsame, hfree] at hfound
    cases hfound

end

/-- Names an algorithm. -/
def enterAlgorithm (r : Registry) (name : String) (t : AlgorithmType) : Outcome Registry :=
  (enter r.algorithms "sharding algorithm" name t).map fun d => { r with algorithms := d }

/-- Names a key generator. -/
def enterKeyGenerator (r : Registry) (name : String) (t : KeyGeneratorType) : Outcome Registry :=
  (enter r.keyGenerators "key generator" name t).map fun d => { r with keyGenerators := d }

/-- Names an encryptor. -/
def enterEncryptor (r : Registry) (name : String) (t : EncryptorType) : Outcome Registry :=
  (enter r.encryptors "encryptor" name t).map fun d => { r with encryptors := d }

/-- Names a balancer. -/
def enterBalancer (r : Registry) (name : String) (b : Balancer) : Outcome Registry :=
  (enter r.balancers "load balancer" name b).map fun d => { r with balancers := d }

/-- The registry without names. -/
def empty : Registry := {}

/-- The registry in which every built-in type has its own name. -/
def builtin : Registry where
  algorithms :=
    .ofList ([.mod, .hashMod, .crc32Mod, .volumeRange, .boundaryRange].map fun t => (t.name, t))
  keyGenerators := .ofList ([.snowflake, .uuid, .increment].map fun t => (t.name, t))
  encryptors := .ofList ([.md5, .rc4].map fun t => (t.name, t))
  balancers := .ofList ([.roundRobin, .random].map fun b => (b.name, b))

/-! ### Extensions -/

/-- The algorithm of a configuration. -/
def algorithm (r : Registry) (c : ExtensionConfig) : Outcome Algorithm := do
  (← look r.algorithms "sharding algorithm" c.type).make c.properties

/-- The key generator of a configuration. -/
def keyGenerator (r : Registry) (c : ExtensionConfig) : Outcome KeyGenerator := do
  (← look r.keyGenerators "key generator" c.type).make c.properties

/-- The encryptor of a configuration. -/
def encryptor (r : Registry) (c : ExtensionConfig) : Outcome Encryptor := do
  (← look r.encryptors "encryptor" c.type).make c.properties

/-- The balancer with a name. -/
def balancer (r : Registry) (name : String) : Outcome Balancer :=
  look r.balancers "load balancer" name

/-! ### Text -/

/-- The names of a dictionary in brackets. -/
def renderNames {α : Type} (names : Dictionary α) : String :=
  "[" ++ ", ".intercalate (names.keys.map Text.quoted) ++ "]"

/-- The names of a registry, in order. -/
def render (r : Registry) : String :=
  "ExtensionRegistry \x7b algorithms: " ++ renderNames r.algorithms ++
    ", key_generators: " ++ renderNames r.keyGenerators ++
    ", encryptors: " ++ renderNames r.encryptors ++
    ", load_balancers: " ++ renderNames r.balancers ++ " \x7d"

end Registry

end ShardedSql
