/-
**Which columns of a result are decrypted.**

An encrypted column is read from its cipher column, item by item, and its values are decrypted,
label by label.  One would like the decrypted columns to be those that are read in this way.  That
fails for a cipher column that a statement selects by itself: whatever has the name of a cipher
column for its label is decrypted.  It also fails where another column has the same label, or where
a qualifier may stand for two tables, as only labels tell which item a column comes from.

Where neither happens a column is decrypted exactly when its item is read from a cipher column or
when its label is the name of one, and in the first case with the encryptor of the item.

Main definitions:

* `ShardedSql.Editing.projectedColumn?` — the encrypted column that an item is;
* `ShardedSql.Editing.ReadsCipher` — the edit that has an item read from a cipher column;
* `ShardedSql.Projection.NamesOneColumn` — the tables that the qualifier of an item may stand for
  agree on its column.

Main results:

* `ShardedSql.Editing.encryptedProjection?_eq_some_iff` — **the edits of the select list** are those
  of the items that are encrypted columns;
* `ShardedSql.Merged.encryptor_of_label` — **the encryptor of a column is found by its label**;
* `ShardedSql.Merged.decrypted_columns` — **which columns are decrypted, and with what encryptor**;
* `ShardedSql.Merged.decrypted_columns_of_labels` — columns that are decrypted although they are not
  read from a cipher column.
-/

import ShardedSql.Editing.Encryption
import ShardedSql.Merged.OfCursors
import ShardedSql.Proofs.Encryption.Stored
import ShardedSql.Proofs.Merging.Places

set_option relaxedAutoImplicit false
set_option autoImplicit false

namespace ShardedSql

/-! ### Items that are read from cipher columns -/

namespace Editing

variable {rule : EncryptRule} {tables : List TableRef} {p : Projection} {e : Edit}

/-- The encrypted column that an item of the select list is. -/
def projectedColumn? (rule : EncryptRule) (tables : List TableRef) :
    Projection → Option EncryptColumn
  | .column owner name _ _ stop =>
      encryptColumn? rule tables ⟨owner, name, nameStart name stop, stop⟩
  | _ => none

/-- An edit that has an item read from the cipher column of an encrypted one, under its label. -/
def ReadsCipher (column : EncryptColumn) (p : Projection) (e : Edit) : Prop :=
  ∃ owner name alias? start stop, p = .column owner name alias? start stop ∧
    e = .encryption (nameStart name stop) stop
      (if alias?.isSome then column.cipherColumn else column.cipherColumn ++ " AS " ++ name)

/-- **The edits of the select list** are those of the items that are encrypted columns. -/
theorem encryptedProjection?_eq_some_iff :
    encryptedProjection? rule tables p = some e ↔
      ∃ column, projectedColumn? rule tables p = some column ∧ ReadsCipher column p e := by
  cases p with
  | column owner name alias? start stop =>
      simp only [encryptedProjection?, projectedColumn?, Option.map_eq_some_iff]
      refine exists_congr fun column => and_congr_right fun _ => ?_
      constructor
      · rintro rfl
        refine ⟨owner, name, alias?, start, stop, rfl, ?_⟩
        cases alias? <;> rfl
      · rintro ⟨_, _, _, _, _, hp, rfl⟩
        cases hp
        cases alias? <;> rfl
  | _ =>
      constructor
      · intro h
        cases h
      · rintro ⟨_, hcolumn, -⟩
        cases hcolumn

theorem encryptedProjection?_eq_none_iff :
    encryptedProjection? rule tables p = none ↔ projectedColumn? rule tables p = none := by
  cases p with
  | column owner name alias? start stop =>
      simp only [encryptedProjection?, projectedColumn?, Option.map_eq_none_iff]
  | _ => exact ⟨fun _ => rfl, fun _ => rfl⟩

end Editing

/-- The tables that the qualifier of an item may stand for have the same encrypted column of its
name, or all have none. -/
def Projection.NamesOneColumn (rule : EncryptRule) (tables : List TableRef) : Projection → Prop
  | .column (some owner) name _ _ _ => ∀ t ∈ tables, ∀ t' ∈ tables, t.isCalled owner = true →
      t'.isCalled owner = true → rule.column? t.name name = rule.column? t'.name name
  | _ => True

namespace Merged

variable {rule : EncryptRule} {s : Select} {labels : List String} {label : String}

/-! ### Labels -/

/-- A column that is selected has its alias for its label, or else its name. -/
theorem label_of_mem_zip (hlabels : s.labels = labels.map some) {owner : Option String}
    {name : String} {alias? : Option String} {start stop : Nat} {l : String}
    (h : (.column owner name alias? start stop, l) ∈ s.projections.items.zip labels) :
    l = alias?.getD name := by
  obtain ⟨i, hi, hget⟩ := List.mem_iff_getElem.1 h
  rw [List.getElem_zip, Prod.mk.injEq] at hget
  obtain ⟨hitem, hlabel⟩ := hget
  rw [List.length_zip, Nat.lt_min] at hi
  have hitem? : s.projections.items[i]? = some (.column owner name alias? start stop) := by
    rw [List.getElem?_eq_getElem hi.1, hitem]
  rw [← Select.map_item_number 0 0 s.projections.items, List.getElem?_map,
    Option.map_eq_some_iff] at hitem?
  obtain ⟨n, hn, hnitem⟩ := hitem?
  have hgiven : n.item.label n.distinctAlias? = some (alias?.getD name) := by
    rw [hnitem]
    rfl
  have hfound := Select.label_of_item hlabels hn hgiven
  rw [List.getElem?_eq_getElem hi.2, Option.some_inj] at hfound
  rw [← hlabel, hfound]

/-- What is looked for under a label is the encrypted column of an item with this label. -/
theorem selectedColumn?_eq (hlabels : s.labels = labels.map some) {x : Projection × String}
    (hx : x ∈ s.projections.items.zip labels)
    (hone : Text.sameName x.2 label = true → x.1.NamesOneColumn rule s.tables) :
    selectedColumn? rule s.tables label x.1 =
      if Text.sameName x.2 label then Editing.projectedColumn? rule s.tables x.1 else none := by
  obtain ⟨p, l⟩ := x
  cases p with
  | column owner name alias? start stop =>
      have hl := label_of_mem_zip hlabels hx
      subst hl
      simp only [selectedColumn?, Editing.projectedColumn?, Editing.encryptColumn?]
      split
      · rename_i hsame
        cases owner with
        | none => rw [show mayOwn none = fun _ => true from rfl, List.filter_true]
        | some owner =>
            exact Lists.findSome?_filter fun t ht t' ht' => hone hsame t ht t' ht'
      · rfl
  | _ => simp only [selectedColumn?, Editing.projectedColumn?, ite_self]

/-- What is found under a label is the first encrypted column among the items with this label. -/
theorem findSome?_selectedColumn? (hlabels : s.labels = labels.map some)
    (hone : ∀ x ∈ s.projections.items.zip labels,
      Text.sameName x.2 label = true → x.1.NamesOneColumn rule s.tables) :
    s.projections.items.findSome? (selectedColumn? rule s.tables label) =
      (s.projections.items.zip labels).findSome? fun x =>
        if Text.sameName x.2 label then Editing.projectedColumn? rule s.tables x.1 else none := by
  have hlength := congrArg List.length hlabels
  rw [Select.labels_length, List.length_map] at hlength
  have hitems : (s.projections.items.zip labels).map Prod.fst = s.projections.items :=
    List.map_fst_zip (by omega)
  conv_lhs => rw [← hitems, List.findSome?_map]
  exact Lists.findSome?_congr fun x hx => selectedColumn?_eq hlabels hx (hone x hx)

/-- Where no table has encrypted columns no column is one of them. -/
theorem encryptorFor?_of_isEmpty (h : rule.isEmpty = true) : encryptorFor? rule s label = none := by
  have hcolumns : ∀ table, rule.columns? table = none := by
    intro table
    rw [EncryptRule.columns?, Dictionary.get?, List.isEmpty_iff.1 h, List.lookup_nil]
  have hselected : s.projections.items.findSome? (selectedColumn? rule s.tables label) = none := by
    refine List.findSome?_eq_none_iff.2 fun p _ => ?_
    cases p with
    | column owner name alias? start stop =>
        simp [selectedColumn?, EncryptRule.column?, hcolumns]
    | _ => rfl
  simp [encryptorFor?, hselected, EncryptRule.byCipher?, hcolumns]

theorem getElem?_encryptorsFor {i : Nat} (hlabel : labels[i]? = some label) :
    (encryptorsFor rule s labels)[i]?.join = encryptorFor? rule s label := by
  unfold encryptorsFor
  split
  · rename_i hempty
    rw [encryptorFor?_of_isEmpty hempty]
    rfl
  · rw [List.getElem?_map, hlabel]
    rfl

/-- **The encryptor of a column is found by its label**: it is that of the first encrypted column
among the items with this label, or else that of the column that has the label for the name of its
cipher column. -/
theorem encryptor_of_label (hlabels : s.labels = labels.map some) {i : Nat}
    (hlabel : labels[i]? = some label)
    (hone : ∀ x ∈ s.projections.items.zip labels,
      Text.sameName x.2 label = true → x.1.NamesOneColumn rule s.tables) :
    (encryptorsFor rule s labels)[i]?.join =
      (((s.projections.items.zip labels).findSome? fun x =>
          if Text.sameName x.2 label then Editing.projectedColumn? rule s.tables x.1 else none) <|>
        s.tables.findSome? fun t => rule.byCipher? t.name label).map (·.encryptor) := by
  rw [getElem?_encryptorsFor hlabel, encryptorFor?, findSome?_selectedColumn? hlabels hone]

/-- What has the encryptor of another column may stand in its place. -/
theorem map_orElse_congr {x y : Option EncryptColumn}
    (h : x.map (·.encryptor) = y.map (·.encryptor)) (z : Option EncryptColumn) :
    (x <|> z).map (·.encryptor) = (y <|> z).map (·.encryptor) := by
  cases x with
  | none =>
      cases y with
      | none => rfl
      | some c => cases h
  | some c =>
      cases y with
      | none => cases h
      | some c' => exact h

/-- Where no item with its label has another encryptor, a column has the encryptor of its item. -/
theorem encryptor_of_item (hlabels : s.labels = labels.map some) {i : Nat}
    (hlabel : labels[i]? = some label)
    (hone : ∀ x ∈ s.projections.items.zip labels,
      Text.sameName x.2 label = true → x.1.NamesOneColumn rule s.tables)
    (hagree : ∀ x ∈ s.projections.items.zip labels, Text.sameName x.2 label = true →
      ∀ column, Editing.projectedColumn? rule s.tables x.1 = some column →
        (s.projections.items[i]?.bind (Editing.projectedColumn? rule s.tables)).map
          (·.encryptor) = some column.encryptor) :
    (encryptorsFor rule s labels)[i]?.join =
      (s.projections.items[i]?.bind (Editing.projectedColumn? rule s.tables) <|>
        s.tables.findSome? fun t => rule.byCipher? t.name label).map (·.encryptor) := by
  rw [encryptor_of_label hlabels hlabel hone]
  refine map_orElse_congr ?_ _
  rw [List.map_findSome?]
  refine Lists.findSome?_eq_of_forall (fun x hx => ?_) ?_
  · rw [Function.comp_apply]
    split
    · rename_i hsame
      cases hcolumn : Editing.projectedColumn? rule s.tables x.1 with
      | none => exact .inl rfl
      | some column => exact .inr (hagree x hx hsame column hcolumn).symm
    · exact .inl rfl
  · cases hp : s.projections.items[i]? with
    | none => exact .inl rfl
    | some p =>
        -- the item of the column is one of those with its label
        have hx : (p, label) ∈ s.projections.items.zip labels :=
          List.mem_of_getElem? (List.getElem?_zip_eq_some.2 ⟨hp, hlabel⟩)
        refine .inr ⟨_, hx, ?_⟩
        rw [Function.comp_apply, if_pos (Text.sameName_refl label), Option.bind_some]

/-- **Which columns of a result are decrypted.**  A column is decrypted when its item is edited to
read a cipher column, with the encryptor of that column; otherwise only when its label is the name
of a cipher column of one of the tables.  As a column has nothing but its label, no item with this
label may be read from a cipher column with another encryptor, and the tables that a qualifier may
stand for must agree. -/
theorem decrypted_columns (hlabels : s.labels = labels.map some) {i : Nat}
    (hlabel : labels[i]? = some label)
    (hone : ∀ x ∈ s.projections.items.zip labels,
      Text.sameName x.2 label = true → x.1.NamesOneColumn rule s.tables)
    (hagree : ∀ x ∈ s.projections.items.zip labels, Text.sameName x.2 label = true →
      ∀ column, Editing.projectedColumn? rule s.tables x.1 = some column →
        (s.projections.items[i]?.bind (Editing.projectedColumn? rule s.tables)).map
          (·.encryptor) = some column.encryptor) :
    (∀ p e, s.projections.items[i]? = some p →
        Editing.encryptedProjection? rule s.tables p = some e →
        ∃ column, Editing.projectedColumn? rule s.tables p = some column ∧
          Editing.ReadsCipher column p e ∧
          (encryptorsFor rule s labels)[i]?.join = some column.encryptor) ∧
      (s.projections.items[i]?.bind (Editing.encryptedProjection? rule s.tables) = none →
        (encryptorsFor rule s labels)[i]?.join =
          (s.tables.findSome? fun t => rule.byCipher? t.name label).map (·.encryptor)) := by
  rw [encryptor_of_item hlabels hlabel hone hagree]
  constructor
  · intro p e hp he
    obtain ⟨column, hcolumn, hreads⟩ := Editing.encryptedProjection?_eq_some_iff.1 he
    refine ⟨column, hcolumn, hreads, ?_⟩
    rw [hp, Option.bind_some, hcolumn]
    rfl
  · intro hnone
    have hcolumn :
        s.projections.items[i]?.bind (Editing.projectedColumn? rule s.tables) = none := by
      cases hp : s.projections.items[i]? with
      | none => rfl
      | some p =>
          rw [hp] at hnone
          exact Editing.encryptedProjection?_eq_none_iff.1 hnone
    rw [hcolumn]
    rfl

/-- `SELECT user_id, phone AS p FROM t_user` -/
def userPhones : Select where
  tables := [⟨"t_user", none, 32, 37⟩]
  projections := ⟨7, 25, false,
    [.column none "user_id" none 7 13, .column none "phone" (some "p") 16 20]⟩

/-- A telephone number that is selected under another name. -/
theorem decrypted_columns_phone :
    userPhones.labels = ["user_id", "p"].map some ∧
      userPhones.projections.items[1]?.bind
        (Editing.encryptedProjection? phoneRule userPhones.tables) =
          some (.encryption 16 20 "phone_cipher") ∧
      (encryptorsFor phoneRule userPhones ["user_id", "p"])[1]?.join = some .md5 := by
  have hlabels : userPhones.labels = ["user_id", "p"].map some := by decide +kernel
  have hedited : Editing.encryptedProjection? phoneRule userPhones.tables
      (.column none "phone" (some "p") 16 20) = some (.encryption 16 20 "phone_cipher") := by
    decide +kernel
  have hphone : Editing.projectedColumn? phoneRule userPhones.tables
      (.column none "phone" (some "p") 16 20) = some phoneColumn := by
    decide +kernel
  have hitems : ∀ x ∈ userPhones.projections.items.zip ["user_id", "p"],
      Text.sameName x.2 "p" = true → x.1 = .column none "phone" (some "p") 16 20 := by
    decide +kernel
  have hone : ∀ x ∈ userPhones.projections.items.zip ["user_id", "p"],
      Text.sameName x.2 "p" = true → x.1.NamesOneColumn phoneRule userPhones.tables := by
    intro x hx hsame
    rw [hitems x hx hsame]
    exact trivial
  have h := decrypted_columns hlabels (i := 1) rfl hone fun x hx hsame column hcolumn => by
    rw [hitems x hx hsame] at hcolumn
    exact congrArg (Option.map (·.encryptor)) hcolumn
  obtain ⟨column, hcolumn, -, hencryptor⟩ := h.1 _ _ rfl hedited
  cases hcolumn.symm.trans hphone
  exact ⟨hlabels, hedited, hencryptor⟩

/-- **Not only columns that are read from cipher columns are decrypted**: also a cipher column that
is selected by itself, a column with the label of another one, and a column of a table that is
called like another one. -/
theorem decrypted_columns_of_labels :
    let cipher : Select :=
      { tables := [⟨"t_user", none, 25, 30⟩],
        projections := ⟨7, 18, false, [.column none "phone_cipher" none 7 18]⟩ }
    let orders : Select :=
      { tables := [⟨"t_user", some "u", 29, 34⟩, ⟨"t_order", some "o", 39, 45⟩],
        projections := ⟨7, 22, false,
          [.column (some "u") "phone" none 7 13, .column (some "o") "phone" none 16 22]⟩ }
    let called : Select :=
      { tables := [⟨"t_guest", some "t_user", 25, 31⟩, ⟨"t_user", some "u", 41, 46⟩],
        projections := ⟨7, 18, false, [.column (some "t_user") "phone" none 7 18]⟩ }
    (cipher.labels = ["phone_cipher"].map some ∧
        encryptorsFor phoneRule cipher ["phone_cipher"] = [some .md5] ∧
        cipher.projections.items.map (Editing.encryptedProjection? phoneRule cipher.tables) =
          [none]) ∧
      (orders.labels = ["phone", "phone"].map some ∧
        encryptorsFor phoneRule orders ["phone", "phone"] = [some .md5, some .md5] ∧
        orders.projections.items.map (Editing.encryptedProjection? phoneRule orders.tables) =
          [some (.encryption 9 13 "phone_cipher AS phone"), none]) ∧
      called.labels = ["phone"].map some ∧
        encryptorsFor phoneRule called ["phone"] = [some .md5] ∧
        called.projections.items.map (Editing.encryptedProjection? phoneRule called.tables) =
          [none] := by
  decide +kernel

end Merged

end ShardedSql
