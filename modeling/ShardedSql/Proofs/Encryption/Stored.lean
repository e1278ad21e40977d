/-
**What is stored for a value of an encrypted column.**

A value is stored as its cipher, as the value that predicates are compared with where that has a
column of its own, and as it is where it is kept in the clear.  Literals and parameters take
different ways there, and both end at these columns with these values.

Main definitions:

* `ShardedSql.EncryptColumn.stored` — **the columns behind an encrypted one, with their values**.

Main results:

* `ShardedSql.EncryptColumn.exists_of_stored` — the cipher comes first, and the columns do not
  depend on the value;
* `ShardedSql.Editing.literalParts_eq_stored`, `ShardedSql.Editing.markerParts_spec` — what a
  literal and what a parameter is assigned as.
-/

import ShardedSql.Editing.Encryption
import ShardedSql.Proofs.Editing.Rows

set_option relaxedAutoImplicit false
set_option autoImplicit false

namespace ShardedSql

namespace EncryptColumn

variable {c : EncryptColumn} {v : Value}

/-- What is stored for a value, column by column: its cipher, the value that predicates are compared
with, and the value itself. -/
def stored (c : EncryptColumn) (v : Value) : Outcome (List (String × Value)) := do
  let cipher ← c.encryptor.encrypt v
  let assisted ← c.assistedValue v
  pure ((c.cipherColumn, cipher) ::
    (c.assistedColumn.toList.zip assisted.toList ++ c.plainColumn.toList.map fun name => (name, v)))

theorem stored_eq_ok {parts : List (String × Value)} :
    c.stored v = .ok parts ↔ ∃ cipher assisted, c.encryptor.encrypt v = .ok cipher ∧
      c.assistedValue v = .ok assisted ∧
      parts = (c.cipherColumn, cipher) ::
        (c.assistedColumn.toList.zip assisted.toList ++
          c.plainColumn.toList.map fun name => (name, v)) := by
  simp only [stored, Outcome.bind_eq_ok]
  constructor
  · rintro ⟨cipher, hcipher, assisted, hassisted, h⟩
    exact ⟨cipher, assisted, hcipher, hassisted, (Except.ok.inj h).symm⟩
  · rintro ⟨cipher, assisted, hcipher, hassisted, rfl⟩
    exact ⟨cipher, hcipher, assisted, hassisted, rfl⟩

/-- There is a value to compare with just where there is a column for it. -/
theorem length_of_assistedValue {assisted : Option Value} (h : c.assistedValue v = .ok assisted) :
    assisted.toList.length = c.assistedColumn.toList.length := by
  unfold assistedValue at h
  cases hcolumn : c.assistedColumn with
  | none =>
      rw [hcolumn] at h
      cases h
      rfl
  | some name =>
      rw [hcolumn] at h
      obtain ⟨a, -, rfl⟩ := Outcome.map_eq_ok.1 h
      rfl

/-- The cipher is stored first, and behind it what has further columns. -/
theorem exists_of_stored {parts : List (String × Value)} (h : c.stored v = .ok parts) :
    ∃ cipher assisted, c.encryptor.encrypt v = .ok cipher ∧ c.assistedValue v = .ok assisted ∧
      parts.map Prod.fst = c.cipherColumn :: Editing.addedColumns c ∧
      parts.map Prod.snd =
        cipher :: (assisted.toList ++ if c.plainColumn.isSome then [v] else []) := by
  obtain ⟨cipher, assisted, hcipher, hassisted, rfl⟩ := stored_eq_ok.1 h
  have hlength := length_of_assistedValue hassisted
  refine ⟨cipher, assisted, hcipher, hassisted, ?_, ?_⟩
  · rw [List.map_cons, List.map_append, List.map_fst_zip hlength.ge, Editing.addedColumns]
    cases c.plainColumn <;> rfl
  · rw [List.map_cons, List.map_append, List.map_snd_zip hlength.le]
    cases c.plainColumn <;> rfl

/-- Where both encryptors give a value, it is stored with these. -/
theorem exists_stored {cipher : Value} {assisted : Option Value}
    (hcipher : c.encryptor.encrypt v = .ok cipher) (hassisted : c.assistedValue v = .ok assisted) :
    ∃ parts, c.stored v = .ok parts ∧ parts.map Prod.snd =
      cipher :: (assisted.toList ++ if c.plainColumn.isSome then [v] else []) := by
  have hstored := stored_eq_ok.2 ⟨cipher, assisted, hcipher, hassisted, rfl⟩
  obtain ⟨cipher', assisted', hcipher', hassisted', -, hvalues⟩ := exists_of_stored hstored
  cases hcipher.symm.trans hcipher'
  cases hassisted.symm.trans hassisted'
  exact ⟨_, hstored, hvalues⟩

end EncryptColumn

namespace Editing

variable {column : EncryptColumn} {v : Value}

theorem parameter_eq_ok {parameters : List Value} {index : Nat} :
    parameter parameters index = .ok v ↔ parameters[index]? = some v := by
  unfold parameter
  cases parameters[index]? <;> simp

/-- A column that is encrypted is one of those of its table. -/
theorem exists_of_encryptColumn? {rule : EncryptRule} {t : TableRef} {c : ColumnRef}
    (h : encryptColumn? rule [t] c = some column) :
    ∃ columns, rule.columns? t.name = some columns ∧ column ∈ columns := by
  have hcolumn : rule.column? t.name c.name = some column := by
    unfold encryptColumn? at h
    split at h
    · obtain ⟨t', ht', hcolumn⟩ := Option.bind_eq_some_iff.1 h
      rwa [← List.mem_singleton.1 (List.mem_of_find?_eq_some ht')]
    · rwa [List.findSome?_singleton] at h
  obtain ⟨columns, hcolumns, hfind⟩ := Option.bind_eq_some_iff.1 hcolumn
  exact ⟨columns, hcolumns, List.mem_of_find?_eq_some hfind⟩

/-- What a literal is assigned as. -/
theorem literalParts_eq_stored : literalParts column v = column.stored v := by
  unfold literalParts EncryptColumn.stored
  refine congrArg (column.encryptor.encrypt v >>= ·) (funext fun cipher => ?_)
  refine congrArg (column.assistedValue v >>= ·) (funext fun assisted => ?_)
  cases column.assistedColumn <;> cases assisted <;> rfl

/-- What a parameter is assigned as: its place has the cipher, and the other values come right
behind it. -/
theorem markerParts_spec {index : Nat} {columns : List String} {d d' : Draft} {b : WholeBinding}
    (hbinding : d.binding = .whole b)
    (h : (markerParts column index v).run.run d = (.ok columns, d')) :
    ∃ cipher more, column.stored v = .ok ((column.cipherColumn, cipher) :: more) ∧
      columns = column.cipherColumn :: more.map Prod.fst ∧
      d' = { d with
        binding := .whole ((b.replace index cipher).insertAfter index (more.map Prod.snd)) } := by
  obtain ⟨b', d₁, hb, h⟩ := Stateful.bind_eq_ok.1 h
  obtain ⟨cipher, d₂, hcipher, h⟩ := Stateful.bind_eq_ok.1 h
  obtain ⟨u, d₃, hreplace, h⟩ := Stateful.bind_eq_ok.1 h
  obtain ⟨assisted, d₄, hassisted, h⟩ := Stateful.bind_eq_ok.1 h
  obtain ⟨u', d₅, hinsert, h⟩ := Stateful.bind_eq_ok.1 h
  obtain ⟨rfl, rfl⟩ := Stateful.pure_eq_ok.1 h
  obtain ⟨hbound, rfl⟩ := of_requireWhole hb
  cases hbinding.symm.trans hbound
  obtain ⟨hencrypt, rfl⟩ := Stateful.liftOutcome_eq_ok.1 hcipher
  cases Stateful.modify_eq_ok.1 hreplace
  obtain ⟨hassist, rfl⟩ := Stateful.liftOutcome_eq_ok.1 hassisted
  cases Stateful.modify_eq_ok.1 hinsert
  refine ⟨cipher, _, EncryptColumn.stored_eq_ok.2 ⟨cipher, assisted, hencrypt, hassist, rfl⟩, ?_⟩
  cases column.assistedColumn <;> cases assisted <;> exact ⟨rfl, rfl⟩

end Editing

/-! ### A telephone number and its digests -/

/-- Telephone numbers are stored as their digest, as a digest to compare with, and as they are. -/
def phoneColumn : EncryptColumn :=
  ⟨"phone", "phone_cipher", some "phone_digest", some "phone_plain", .md5, none⟩

/-- The rule of the telephone numbers of users. -/
def phoneRule : EncryptRule := ⟨⟨[("t_user", [phoneColumn])]⟩⟩

end ShardedSql
