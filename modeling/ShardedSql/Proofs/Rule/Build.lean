/-
**What a configuration makes sure of.**

A rule is only built when the counts of its algorithms are above zero and every table has a node.

Main definitions:

* `ShardedSql.TableRule.IsValid` — the strategies of a table are valid, and it has a node.

Main results:

* `ShardedSql.AlgorithmType.isValid_make` — algorithms are made with valid counts only;
* `ShardedSql.Rule.isValid_of_ofConfig` — **the tables of a rule that was built are valid**.
-/

import ShardedSql.Proofs.Algorithm
import ShardedSql.Rule.Build

set_option relaxedAutoImplicit false
set_option autoImplicit false

namespace ShardedSql

/-- What a name stands for is there under that name. -/
theorem mem_of_lookup {α : Type} {entries : List (String × α)} {name : String} {value : α}
    (h : entries.lookup name = some value) : (name, value) ∈ entries := by
  obtain ⟨before, after, rfl, -⟩ := List.lookup_eq_some_iff.1 h
  simp

/-! ### Algorithms -/

namespace AlgorithmType

theorem readUnsigned_le {s : String} {n : Nat} (h : readUnsigned s = .ok n) :
    n ≤ Text.maxUInt64 := by
  unfold readUnsigned at h
  split at h
  · -- what is read is held in a word
    rename_i w hw
    cases h
    have hlt := w.toNat_lt
    unfold Text.maxUInt64
    omega
  · cases h

theorem positiveProperty_spec {t : AlgorithmType} {props : Properties} {key : String} {n : Nat}
    (h : t.positiveProperty props key = .ok n) : 0 < n ∧ n ≤ Text.maxUInt64 := by
  obtain ⟨text, -, h⟩ := Outcome.bind_eq_ok.1 h
  obtain ⟨m, hm, h⟩ := Outcome.bind_eq_ok.1 h
  have hle := readUnsigned_le hm
  split at h
  · cases h
  · cases h
    omega

/-- Algorithms are made with valid counts only. -/
theorem isValid_make {t : AlgorithmType} {props : Properties} {a : Algorithm}
    (h : t.make props = .ok a) : a.IsValid := by
  cases t with
  | mod =>
      obtain ⟨count, hcount, rfl⟩ := Outcome.map_eq_ok.1 h
      exact positiveProperty_spec hcount
  | hashMod =>
      obtain ⟨count, -, rfl⟩ := Outcome.map_eq_ok.1 h
      trivial
  | crc32Mod =>
      obtain ⟨count, -, rfl⟩ := Outcome.map_eq_ok.1 h
      trivial
  | volumeRange =>
      obtain ⟨low, -, h⟩ := Outcome.bind_eq_ok.1 h
      obtain ⟨lower, -, h⟩ := Outcome.bind_eq_ok.1 h
      obtain ⟨high, -, h⟩ := Outcome.bind_eq_ok.1 h
      obtain ⟨upper, -, h⟩ := Outcome.bind_eq_ok.1 h
      obtain ⟨volume, -, h⟩ := Outcome.bind_eq_ok.1 h
      split at h
      · cases h
      · cases h
        trivial
  | boundaryRange =>
      obtain ⟨ranges, -, h⟩ := Outcome.bind_eq_ok.1 h
      obtain ⟨cuts, -, h⟩ := Outcome.bind_eq_ok.1 h
      split at h
      · cases h
      · cases h
        trivial

end AlgorithmType

/-! ### Tables -/

/-- The strategies of the table are valid, and it has a node. -/
structure TableRule.IsValid (t : TableRule) : Prop where
  database : t.database.IsValid
  table : t.table.IsValid
  nodes_ne_nil : t.nodes ≠ []

namespace Rule

namespace Builder

variable {b : Builder} {database table : Strategy}

theorem isValid_strategy (hb : ∀ p ∈ b.algorithms, p.2.IsValid) {c : StrategyConfig} {s : Strategy}
    (h : b.strategy c = .ok s) : s.IsValid := by
  cases c with
  | none =>
      cases h
      trivial
  | standard column name =>
      simp only [strategy] at h
      split at h
      · cases h
      · split at h
        · rename_i a ha
          cases h
          exact hb _ (mem_of_lookup ha)
        · cases h

theorem isValid_strategyOr (hb : ∀ p ∈ b.algorithms, p.2.IsValid) (hdefault : database.IsValid)
    {c : Option StrategyConfig} {s : Strategy} (h : b.strategyOr database c = .ok s) :
    s.IsValid := by
  cases c with
  | none =>
      cases h
      exact hdefault
  | some c => exact isValid_strategy hb h

theorem isValid_table (hb : ∀ p ∈ b.algorithms, p.2.IsValid) (hdatabase : database.IsValid)
    (htable : table.IsValid) {dataSources : List String} {c : TableConfig} {t : TableRule}
    (h : b.table dataSources database table c = .ok t) : t.IsValid := by
  obtain ⟨nodes, -, h⟩ := Outcome.bind_eq_ok.1 h
  split at h
  · cases h
  · rename_i hnodes
    obtain ⟨db, hdb, h⟩ := Outcome.bind_eq_ok.1 h
    obtain ⟨tb, htb, h⟩ := Outcome.bind_eq_ok.1 h
    obtain ⟨key, -, h⟩ := Outcome.bind_eq_ok.1 h
    cases h
    exact ⟨isValid_strategyOr hb hdatabase (Outcome.note_eq_ok.1 hdb),
      isValid_strategyOr hb htable (Outcome.note_eq_ok.1 htb),
      fun hnil => hnodes (List.isEmpty_iff.2 hnil)⟩

theorem isValid_tables (hb : ∀ p ∈ b.algorithms, p.2.IsValid) (hdatabase : database.IsValid)
    (htable : table.IsValid) {dataSources : List String} {configs : List TableConfig}
    {done tables : List (String × TableRule)} (hdone : ∀ p ∈ done, p.2.IsValid)
    (h : b.tables dataSources database table done configs = .ok tables) :
    ∀ p ∈ tables, p.2.IsValid := by
  induction configs generalizing done with
  | nil =>
      cases h
      exact hdone
  | cons c rest ih =>
      obtain ⟨t, ht, h⟩ := Outcome.bind_eq_ok.1 h
      simp only at h
      split at h
      · cases h
      · refine ih (fun p hp => ?_) h
        rcases List.mem_append.1 hp with hp | hp
        · exact hdone p hp
        · rw [List.mem_singleton.1 hp]
          exact isValid_table hb hdatabase htable ht

end Builder

/-! ### Rules -/

/-- The algorithms of a configuration are valid. -/
theorem isValid_algorithms {registry : Registry} {configs : List (String × ExtensionConfig)}
    {algorithms : List (String × Algorithm)}
    (h : (configs.mapM fun kv => do
      pure (kv.1, ← (registry.algorithm kv.2).note "algorithm" kv.1)) = .ok algorithms) :
    ∀ p ∈ algorithms, p.2.IsValid := by
  intro p hp
  obtain ⟨kv, -, hkv⟩ := Outcome.exists_of_mem_right h hp
  obtain ⟨a, ha, hkv⟩ := Outcome.bind_eq_ok.1 hkv
  cases hkv
  obtain ⟨t, -, hmake⟩ := Outcome.bind_eq_ok.1 (Outcome.note_eq_ok.1 ha)
  exact AlgorithmType.isValid_make hmake

/-- **The tables of a rule that was built are valid.** -/
theorem isValid_of_ofConfig {registry : Registry} {c : RuleConfig} {rule : Rule}
    (h : ofConfig registry c = .ok rule) : ∀ p ∈ rule.tables, p.2.IsValid := by
  obtain ⟨algorithms, halgorithms, h⟩ := Outcome.bind_eq_ok.1 h
  obtain ⟨generators, -, h⟩ := Outcome.bind_eq_ok.1 h
  obtain ⟨database, hdatabase, h⟩ := Outcome.bind_eq_ok.1 h
  obtain ⟨table, htable, h⟩ := Outcome.bind_eq_ok.1 h
  obtain ⟨tables, htables, h⟩ := Outcome.bind_eq_ok.1 h
  obtain ⟨bindingGroups, -, h⟩ := Outcome.bind_eq_ok.1 h
  obtain ⟨encrypt, -, h⟩ := Outcome.bind_eq_ok.1 h
  obtain ⟨replicas, -, h⟩ := Outcome.bind_eq_ok.1 h
  cases h
  have hb := isValid_algorithms halgorithms
  have hnone : Strategy.none.IsValid := trivial
  have hdb : database.IsValid := Builder.isValid_strategyOr hb hnone hdatabase
  have htb : table.IsValid := Builder.isValid_strategyOr hb hnone htable
  exact Builder.isValid_tables hb hdb htb (by simp) htables

theorem isValid_of_table? {registry : Registry} {c : RuleConfig} {rule : Rule}
    (h : ofConfig registry c = .ok rule) {name : String} {t : TableRule}
    (ht : rule.table? name = some t) : t.IsValid :=
  isValid_of_ofConfig h _ (mem_of_lookup ht)

end Rule

end ShardedSql
