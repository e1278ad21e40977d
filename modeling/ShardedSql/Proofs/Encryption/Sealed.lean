/-
**What an insertion writes in the clear.**

Whatever a row gives to a column that is listed and encrypted is written as the output of an
encryptor.  This does not yet keep a column secret: the encrypted columns are looked for in the
column list, so a row without a list is written as it is, and the key of a row is put behind it by
an editor of its own, which leaves it as it was generated.  Without a list only the routing of a
sharded table refuses an insertion.

Main definitions:

* `ShardedSql.EncryptColumn.Seals` — a name with a value that an encryptor gave for it;
* `ShardedSql.Routed.SealsRow` — **what a row is written as**, the sealed values and the others.

Main results:

* `ShardedSql.EncryptColumn.seals_of_stored` — nothing else is stored where no column is plain;
* `ShardedSql.LogicalSql.unsharded_of_unlisted` — a column list is missing only where a table is not
  sharded, and then no key is generated;
* `ShardedSql.LogicalSql.sealed_values_spec` — **listed values of encrypted columns are sealed, and
  nothing else is**.
-/

import ShardedSql.Proofs.Encryption.Paired

set_option relaxedAutoImplicit false
set_option autoImplicit false

namespace ShardedSql

open Filling

/-! ### Sealed values -/

namespace EncryptColumn

variable {c : EncryptColumn} {v : Value}

/-- A value is written as the output of an encryptor, under the name of the cipher or the assisted
column. -/
def Seals (c : EncryptColumn) (v : Value) (p : String × Cell) : Prop :=
  ∃ w, p.2 = .value w ∧
    (p.1 = c.cipherColumn ∧ c.encryptor.encrypt v = .ok w ∨
      c.assistedColumn = some p.1 ∧ (c.assistedEncryptor.getD c.encryptor).encrypt v = .ok w)

theorem of_assistedValue {w : Value} (h : c.assistedValue v = .ok (some w)) :
    (c.assistedEncryptor.getD c.encryptor).encrypt v = .ok w := by
  unfold assistedValue at h
  split at h
  · cases h
  · obtain ⟨w', hw', hsome⟩ := Outcome.map_eq_ok.1 h
    cases hsome
    exact hw'

/-- **What is stored where no column is plain is sealed.** -/
theorem seals_of_stored (hplain : c.plainColumn = none) {parts : List (String × Value)}
    (h : c.stored v = .ok parts) : ∀ p ∈ parts, c.Seals v (p.1, .value p.2) := by
  obtain ⟨cipher, assisted, hcipher, hassisted, rfl⟩ := stored_eq_ok.1 h
  rw [hplain, Option.toList_none, List.map_nil, List.append_nil]
  refine List.forall_mem_cons.2 ⟨⟨cipher, rfl, .inl ⟨rfl, hcipher⟩⟩, fun p hp => ?_⟩
  obtain ⟨hname, hvalue⟩ := List.of_mem_zip hp
  rw [Option.mem_toList] at hname hvalue
  rw [hvalue] at hassisted
  exact ⟨p.2, rfl, .inr ⟨hname, of_assistedValue hassisted⟩⟩

end EncryptColumn

/-! ### Rows -/

/-- What a row with its number is written as: what is stored for the values of listed columns, of
which those of encrypted columns are sealed, the values without a column, and the generated key. -/
def Routed.SealsRow (r : Routed) (rule : Rule) (i : Insert) (x : ValueRow × Nat)
    (row : List Cell) : Prop :=
  ∃ parts, List.Forall₂ (fun p part =>
      p.2.IsStoredAs rule.encrypt [i.table] r.sql.parameters p.1 part ∧
      ∀ column ∈ Editing.encryptColumn? rule.encrypt [i.table] p.1,
        ∃ v, p.2.resolve r.sql.parameters = some v ∧ ∀ q ∈ part, column.Seals v q)
      (i.columns.zip x.1.exprs) parts ∧
    row = (parts.flatMap (List.take 1)).map Prod.snd ++
      (x.1.exprs.drop i.columns.length).map (Expr.cell r.sql.parameters) ++
      (r.keyPart x.2).map Prod.snd ++ (parts.flatMap (List.drop 1)).map Prod.snd

section

variable {rule : Rule} {r : Routed} {i : Insert} {x : ValueRow × Nat} {y : RowPieces}
  {encrypted : List EncryptColumn}

/-- What is stored for an expression is sealed where its column is encrypted. -/
theorem Expr.IsStoredAs.seals (hcolumns : rule.encrypt.columns? i.table.name = some encrypted)
    (hplain : ∀ c ∈ encrypted, c.plainColumn = none) {c : ColumnRef} {e : Expr}
    {parameters : List Value} {part : List (String × Cell)}
    (h : e.IsStoredAs rule.encrypt [i.table] parameters c part) :
    ∀ column ∈ Editing.encryptColumn? rule.encrypt [i.table] c,
      ∃ v, e.resolve parameters = some v ∧ ∀ q ∈ part, column.Seals v q := by
  intro column hcolumn
  obtain ⟨columns, hfound, hmem⟩ := Editing.exists_of_encryptColumn? hcolumn
  cases hcolumns.symm.trans hfound
  rw [IsStoredAs, hcolumn] at h
  obtain ⟨v, parts, hv, hparts, rfl⟩ := h
  exact ⟨v, hv, List.forall_mem_map.2 (EncryptColumn.seals_of_stored (hplain column hmem) hparts)⟩

/-- An encrypted row is read as it is sealed. -/
theorem RowPieces.IsEncrypted.sealsRow
    (hcolumns : rule.encrypt.columns? i.table.name = some encrypted)
    (hplain : ∀ c ∈ encrypted, c.plainColumn = none)
    (h : (r.pieces x).IsEncrypted rule.encrypt [i.table] r.sql.parameters i.columns x.1.exprs y) :
    r.SealsRow rule i x y.cells := by
  obtain ⟨parts, hparts, hcells⟩ := h.exists_parts
  refine ⟨parts, hparts.imp fun p part hstored => ⟨hstored, hstored.seals hcolumns hplain⟩, ?_⟩
  rw [hcells, Routed.map_snd_keyPart]

/-! ### Column lists -/

/-- **Only where a table is not sharded a column list may be missing**, and then no key is
generated. -/
theorem LogicalSql.unsharded_of_unlisted {sql : LogicalSql} (hinsert : sql.statement = .insert i)
    (hset : i.set = none) (hlist : i.columns = []) {s s' : Rule.Counters}
    (hroute : (sql.route rule).run.run s = (.ok r, s')) :
    rule.isSharded i.table.name = false ∧ r.key = none := by
  obtain ⟨conditions, routing, s₁, hconditions, -, -, -⟩ := route_steps hroute
  obtain ⟨hof, hkey⟩ := conditions_eq_ok hconditions
  have hnames : i.columnNames = [] := by rw [Insert.columnNames, hset, hlist]; rfl
  have hnone : rule.table? i.table.name = none := by
    rw [hinsert, Condition.ofStatement, Condition.ofInsert] at hof
    split at hof
    · assumption
    · rw [hnames] at hof
      cases hof
  refine ⟨by rw [Rule.isSharded, hnone]; rfl, ?_⟩
  have hgenerated := hkey i hinsert
  have hcolumn : rule.keyColumn? i.table.name = none := by rw [Rule.keyColumn?, hnone]; rfl
  rw [GeneratedKey.ofInsert, hcolumn] at hgenerated
  exact (Stateful.pure_eq_ok.1 hgenerated).1.symm

/-- **What an insertion writes of encrypted columns that are not kept in the clear.**  Every value
that a row gives to a listed column that is encrypted is written as the output of an encryptor, in
the place of the column, which has the name of the cipher column there, or under a name that is
added.  Every other value is written as it is, also one without a column in the list and a generated
key.  A column list may be missing where the table is not sharded. -/
theorem LogicalSql.sealed_values_spec {sql : LogicalSql} (hinsert : sql.statement = .insert i)
    (hset : i.set = none) (hvalues : i.values ≠ [])
    (hcolumns : rule.encrypt.columns? i.table.name = some encrypted)
    (hplain : ∀ c ∈ encrypted, c.plainColumn = none)
    (hmarkers : i.markers = List.range sql.parameters.length)
    {s s' : Rule.Counters} (hroute : (sql.route rule).run.run s = (.ok r, s'))
    {statements : List PhysicalSql} (hphysical : r.physical rule = .ok statements) :
    (i.columns = [] → rule.isSharded i.table.name = false ∧ r.key = none) ∧
      ∃ start last rows,
        (r.draft rule).edits.filter Edit.encrypts =
          i.columns.filterMap (Editing.renaming? rule.encrypt [i.table]) ∧
        (r.draft rule).edits.filter Edit.addsColumns =
          Edit.ofColumns i.columnsStop (r.addedNames rule i) ∧
        (r.draft rule).edits.filter Edit.writesRows = [.insertRows start last rows] ∧
        List.Forall₂ (fun p statement =>
          statement.dataSource = p.source.actual ∧
          Splice.edited sql.text (r.draft rule).edits (some p) = .ok statement.text ∧
          ∃ cells,
            (Edit.fillRows (Edit.rowsFor (some p) rows)).run statement.parameters =
              some (cells, sql.parameters.drop i.rowParameterCount) ∧
            List.Forall₂ (r.SealsRow rule i)
              (i.rows.zipIdx.filter fun x => GroupedBinding.goesTo p r.routing.rowNodes[x.2]?)
              cells)
          r.routing.placements statements := by
  obtain ⟨rfl, -⟩ := length_keys_of_route hinsert hroute
  refine ⟨fun hlist => unsharded_of_unlisted hinsert hset hlist hroute, ?_⟩
  obtain ⟨ys, hwrites, hstatements⟩ := Routed.exists_rows_of_physical hinsert hset hvalues
    (by rw [hcolumns]; rfl) hmarkers hphysical
  obtain ⟨start, last, -, hrows⟩ := hwrites.written
  refine ⟨start, last, _, hwrites.renamed, hwrites.added, hrows,
    hstatements.imp fun p statement hstatement => ?_⟩
  obtain ⟨hsource, htext, cells, hread, hcells⟩ := hstatement
  refine ⟨hsource, htext, cells, hread, hcells.imp fun x row hxrow => ?_⟩
  obtain ⟨-, y, hy, hrow⟩ := hxrow
  rw [← hrow]
  exact hy.sealsRow hcolumns hplain

end

/-! ### Sealed and open statements -/

/-- A column of which only a digest is stored. -/
def digestColumn (name cipher : String) : EncryptColumn := ⟨name, cipher, none, none, .md5, none⟩

/-- Users are on one data source, and of their telephone numbers only digests are stored. -/
def userConfig : RuleConfig :=
  { dataSources := ["ds_0"]
    defaultDataSource := some "ds_0"
    encrypt := some
      { encryptors := ⟨[("md5", { type := "MD5" })]⟩
        tables := [⟨"t_user", [{
          logicColumn := "phone"
          cipherColumn := "phone_cipher"
          encryptor := "md5" }]⟩] } }

/-- The rule of users. -/
def userRule : Rule :=
  ⟨[], [], [], ["ds_0"], some "ds_0", ⟨⟨[("t_user", [digestColumn "phone" "phone_cipher"])]⟩⟩, [],
    {}⟩

/-- The rule of orders in four tables, of which the numbers are stored as digests. -/
def digestOrderRule : Rule :=
  { gridRule [] with encrypt := ⟨⟨[("t_order", [digestColumn "order_id" "order_cipher"])]⟩⟩ }

/-- A telephone number with a column list. -/
def listedPhone : Insert :=
  .ofValues (.ofName "t_user" 12) [.ofName "phone" 20] 25
    [⟨[.literal (.text "123") 35 39], 34, 40⟩]

/-- An insertion of a user with a column list. -/
def listedUser : LogicalSql where
  text := "INSERT INTO t_user (phone) VALUES ('123')"
  statement := .insert listedPhone

/-- The same insertion without one. -/
def unlistedUser : LogicalSql where
  text := "INSERT INTO t_user VALUES ('123')"
  statement := .insert
    { table := .ofName "t_user" 12, values := [⟨[.literal (.text "123") 27 31], 26, 32⟩] }

/-- An insertion with a marker inside of an expression. -/
def olderUser : LogicalSql where
  text := "INSERT INTO t_user (age, phone) VALUES (? + 1, ?)"
  statement := .insert (.ofValues (.ofName "t_user" 12) [.ofName "age" 20, .ofName "phone" 25] 30
    [⟨[.raw "? + 1" 40 44, .markerAt 1 47], 39, 48⟩])
  parameters := [.int 20, .text "123"]

/-- An insertion of an order of which the number is generated. -/
def numberedOrder : LogicalSql where
  text := "INSERT INTO t_order (user_id) VALUES (10)"
  statement := .insert (.ofValues (.ofName "t_order" 12) [.ofName "user_id" 21] 28
    [⟨[.literal (.int 10) 38 39], 37, 40⟩])

/-- What is sent for the user with a column list. -/
def listedStatements : List PhysicalSql :=
  [⟨"ds_0", "INSERT INTO t_user (phone_cipher) VALUES ('202cb962ac59075b964b07152d234b70')", []⟩]

/-- A user after routing. -/
def userRouted (sql : LogicalSql) : Routed :=
  ⟨sql, { placements := [⟨.same "ds_0", [.same "t_user"]⟩] }, none⟩

/-- The order after routing. -/
def numberedRouted : Routed where
  sql := numberedOrder
  routing :=
    { placements := [⟨.same "ds_0", [⟨"t_order", "t_order_1"⟩]⟩]
      rowNodes := [[⟨"ds_0", "t_order_1"⟩]] }
  key := some ⟨"order_id", true, [.int 1]⟩

namespace LogicalSql

/-- A listed telephone number is sealed. -/
theorem sealed_values_spec_listed :
    Rule.ofConfig .builtin userConfig = .ok userRule ∧
      (listedUser.route userRule).run.run userRule.start =
        (.ok (userRouted listedUser), userRule.start) ∧
      (userRouted listedUser).physical userRule = .ok listedStatements ∧
      ∃ cells, List.Forall₂ ((userRouted listedUser).SealsRow userRule listedPhone)
        listedPhone.rows.zipIdx cells := by
  have hroute : (listedUser.route userRule).run.run userRule.start =
      (.ok (userRouted listedUser), userRule.start) := rfl
  have harrange : Splice.arrange ((userRouted listedUser).draft userRule).edits =
      [.encryption 20 24 "phone_cipher",
        .insertRows 34 40 [⟨[.literal (.text "202cb962ac59075b964b07152d234b70")], []⟩]] :=
    Splice.arrange_eq_of_perm (by decide +kernel) (by decide +kernel)
  have hphysical : (userRouted listedUser).physical userRule = .ok listedStatements := by
    rw [Routed.physical_of_arrange harrange]
    decide +kernel
  have hplain : ∀ c ∈ [digestColumn "phone" "phone_cipher"], c.plainColumn = none := by decide
  have hcolumns : userRule.encrypt.columns? "t_user" =
      some [digestColumn "phone" "phone_cipher"] := rfl
  have hinsert : listedUser.statement = .insert listedPhone := rfl
  obtain ⟨-, start, last, rows, -, -, -, hstatements⟩ := sealed_values_spec hinsert rfl
    (List.cons_ne_nil _ _) hcolumns hplain rfl hroute hphysical
  obtain ⟨p, -, -, -, cells, -, hcells⟩ :=
    Lists.exists_of_forall₂_right hstatements (List.mem_singleton_self _)
  exact ⟨by decide +kernel, hroute, hphysical, cells, hcells⟩

/-- Three insertions of encrypted columns that are not kept in the clear, and yet their values are
sent as they are: one without a column list, one with a generated key, and one with a marker inside
of an expression. -/
theorem sealed_values_of_open_insertions :
    userRule.encrypt.columns? "t_user" = some [digestColumn "phone" "phone_cipher"] ∧
      digestOrderRule.encrypt.columns? "t_order" =
        some [digestColumn "order_id" "order_cipher"] ∧
      (unlistedUser.route userRule).run.run userRule.start =
        (.ok (userRouted unlistedUser), userRule.start) ∧
      (userRouted unlistedUser).physical userRule = .ok
        [⟨"ds_0", "INSERT INTO t_user VALUES ('123')", []⟩] ∧
      (∃ s', (numberedOrder.route digestOrderRule).run.run digestOrderRule.start =
        (.ok numberedRouted, s')) ∧
      numberedRouted.physical digestOrderRule = .ok
        [⟨"ds_0", "INSERT INTO t_order_1 (user_id, order_id) VALUES (10, 1)", []⟩] ∧
      (olderUser.route userRule).run.run userRule.start =
        (.ok (userRouted olderUser), userRule.start) ∧
      (userRouted olderUser).physical userRule = .ok
        [⟨"ds_0", "INSERT INTO t_user (age, phone_cipher) VALUES (? + 1, ?)",
          [.int 20, .text "123"]⟩] := by
  have harrange : Splice.arrange ((userRouted olderUser).draft userRule).edits =
      [.encryption 25 29 "phone_cipher",
        .insertRows 39 48 [⟨[.expr (.raw "? + 1" 40 44), .expr (.markerAt 1 47)], []⟩]] :=
    Splice.arrange_eq_of_perm (by decide +kernel) (by decide +kernel)
  refine ⟨rfl, rfl, rfl, ?_, ⟨_, rfl⟩, ?_, rfl, ?_⟩
  · rw [Routed.physical_of_pairwise (by decide +kernel)]
    decide +kernel
  · rw [Routed.physical_of_pairwise (by decide +kernel)]
    decide +kernel
  · rw [Routed.physical_of_arrange harrange]
    decide +kernel

end LogicalSql

end ShardedSql
