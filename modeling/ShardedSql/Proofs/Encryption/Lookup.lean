/-
**What is written encrypted is found again.**

A condition compares the column that is asked for, which is the assisted column where there is one,
with the value that this column has.  An assignment and a row of an insertion write all columns of
an encrypted one, each with a value of its own.  They agree on what is written to the column that
is asked for, however the value is given on either side.

Main definitions:

* `ShardedSql.EncryptColumn.physicalNames` — the names of the columns behind an encrypted one;
* `ShardedSql.Routed.Asks`, `ShardedSql.Routed.Sets`, `ShardedSql.Routed.Lists` — statements that
  ask for a value of an encrypted column, that assign it, and that list it in a row;
* `ShardedSql.Routed.Inserts` — the names and values that a row is sent with.

Main results:

* `ShardedSql.EncryptColumn.mem_of_stored` — what is compared is among what is stored;
* `ShardedSql.Routed.inserts_of_lists` — what is stored is sent with a row;
* `ShardedSql.Routed.written_value_found` — **a condition compares what was written**.
-/

import ShardedSql.Proofs.Encryption.Operands
import ShardedSql.Proofs.Encryption.Paired

set_option relaxedAutoImplicit false
set_option autoImplicit false

namespace ShardedSql

/-- A marker that stands for a value has a parameter. -/
theorem Expr.lt_of_resolve {e : Expr} {index : Nat} (hindex : index ∈ e.marker?)
    {parameters : List Value} {v : Value} (h : e.resolve parameters = some v) :
    index < parameters.length := by
  rw [resolve_of_marker? hindex] at h
  exact (List.getElem?_eq_some_iff.1 h).1

/-! ### Columns -/

namespace EncryptColumn

variable {c : EncryptColumn} {v : Value} {parts : List (String × Value)}

/-- The names of the columns behind an encrypted one. -/
def physicalNames (c : EncryptColumn) : List String := c.cipherColumn :: Editing.addedColumns c

theorem map_fst_of_stored (h : c.stored v = .ok parts) : parts.map Prod.fst = c.physicalNames := by
  obtain ⟨cipher, assisted, -, -, hnames, -⟩ := exists_of_stored h
  exact hnames

/-- **What is compared is among what is stored**, under the name that is compared. -/
theorem mem_of_stored (h : c.stored v = .ok parts) :
    ∃ q, c.queryValue v = .ok q ∧ (c.queryColumn, q) ∈ parts := by
  obtain ⟨cipher, assisted, hcipher, hassisted, rfl⟩ := stored_eq_ok.1 h
  have hlength := length_of_assistedValue hassisted
  unfold queryValue queryColumn
  rw [hassisted]
  cases hcolumn : c.assistedColumn with
  | none =>
      rw [hcolumn] at hlength
      rw [Option.toList_eq_nil_iff.1 (List.length_eq_zero_iff.1 hlength)]
      exact ⟨cipher, hcipher, List.mem_cons_self⟩
  | some name =>
      cases assisted with
      | none =>
          rw [hcolumn] at hlength
          cases hlength
      | some a => exact ⟨a, rfl, List.mem_cons_of_mem _ (List.mem_cons_self ..)⟩

end EncryptColumn

/-! ### Statements with a value of an encrypted column -/

namespace Routed

/-- A statement is sent with a condition that asks for the rows in which an encrypted column has a
value, which an expression stands for.  Each of its markers has a parameter of its own. -/
structure Asks (rule : Rule) (column : EncryptColumn) (v : Value) (r : Routed) (c : ColumnRef)
    (e : Expr) : Prop where
  sent : ∃ statements, r.physical rule = .ok statements
  leaf : ∃ leaf ∈ r.sql.statement.leaves, leaf.AsksFor c e
  encrypted : Editing.encryptColumn? rule.encrypt r.sql.statement.tables c = some column
  value : e.resolve r.sql.parameters = some v
  markers : (Operand.markers r.sql.statement.operands).Nodup

/-- A change, or an insertion with `SET`, is sent with an assignment of a value to an encrypted
column. -/
structure Sets (rule : Rule) (column : EncryptColumn) (v : Value) (r : Routed) (a : Assignment) :
    Prop where
  sent : ∃ statements, r.physical rule = .ok statements
  assignment : a ∈ r.sql.statement.assignments
  encrypted : Editing.encryptColumn? rule.encrypt r.sql.statement.tables a.column = some column
  value : a.value.resolve r.sql.parameters = some v
  markers : (Operand.markers r.sql.statement.operands).Nodup

/-- An insertion with `VALUES` is sent, of which a row with its number gives a value to an encrypted
column.  Its markers are numbered from left to right. -/
structure Lists (rule : Rule) (column : EncryptColumn) (v : Value) (r : Routed) (i : Insert)
    (x : ValueRow × Nat) (statements : List PhysicalSql) : Prop where
  routed : ∃ s s', (r.sql.route rule).run.run s = (.ok r, s')
  sent : r.physical rule = .ok statements
  insert : r.sql.statement = .insert i
  values : i.set = none
  row : x ∈ i.rows.zipIdx
  length : x.1.exprs.length = i.columns.length
  given : ∃ p ∈ i.columns.zip x.1.exprs,
    Editing.encryptColumn? rule.encrypt [i.table] p.1 = some column ∧
      p.2.resolve r.sql.parameters = some v
  markers : i.markers = List.range r.sql.parameters.length

/-! ### Rows -/

/-- The names of the column list once it is edited. -/
def columnNames (r : Routed) (rule : Rule) (i : Insert) : List String :=
  i.columns.map (Editing.writtenName rule.encrypt [i.table]) ++ r.addedNames rule i

/-- The row with its number is among those that are written for a placement.  When their markers are
filled with the parameters of the statement there, it has some values under the names of the column
list. -/
def SendsRow (r : Routed) (rule : Rule) (i : Insert) (x : ValueRow × Nat) (rows : List RowDraft)
    (p : Placement) (statement : PhysicalSql) (pairs : List (String × Value)) : Prop :=
  ∃ cells rest row, (Edit.fillRows (Edit.rowsFor (some p) rows)).run statement.parameters =
      some (cells, rest) ∧
    (x, row) ∈ (i.rows.zipIdx.filter fun x =>
      GroupedBinding.goesTo p r.routing.rowNodes[x.2]?).zip cells ∧
    ∀ q ∈ pairs, (q.1, Cell.value q.2) ∈ (r.columnNames rule i).zip row

/-- **The names and values that a row with its number is sent with**: the edits of the column list
make its names, and the row has the values under them wherever it goes. -/
structure Inserts (rule : Rule) (r : Routed) (i : Insert) (x : ValueRow × Nat)
    (statements : List PhysicalSql) (pairs : List (String × Value)) : Prop where
  renamed : (r.draft rule).edits.filter Edit.encrypts =
    i.columns.filterMap (Editing.renaming? rule.encrypt [i.table])
  added : (r.draft rule).edits.filter Edit.addsColumns =
    Edit.ofColumns i.columnsStop (r.addedNames rule i)
  sends : ∃ start stop rows,
    (r.draft rule).edits.filter Edit.writesRows = [.insertRows start stop rows] ∧
      ∀ p statement, (p, statement) ∈ r.routing.placements.zip statements →
        GroupedBinding.goesTo p r.routing.rowNodes[x.2]? = true →
        r.SendsRow rule i x rows p statement pairs

section

variable {rule : Rule} {r : Routed} {i : Insert} {x : ValueRow × Nat} {y : RowPieces}
  {column : EncryptColumn} {v : Value} {statements : List PhysicalSql}

/-- What is stored for a value of a row is among what is stored for the row. -/
theorem StoresRow.exists_stored {pairs : List (String × Cell)} (h : r.StoresRow rule i x pairs)
    {p : ColumnRef × Expr} (hp : p ∈ i.columns.zip x.1.exprs)
    (hcolumn : Editing.encryptColumn? rule.encrypt [i.table] p.1 = some column)
    (hvalue : p.2.resolve r.sql.parameters = some v) :
    ∃ parts, column.stored v = .ok parts ∧ ∀ q ∈ parts, (q.1, Cell.value q.2) ∈ pairs := by
  obtain ⟨written, hwritten, rfl⟩ := h
  obtain ⟨part, hpart, hstored⟩ := Lists.exists_of_forall₂ hwritten hp
  rw [Expr.IsStoredAs, hcolumn] at hstored
  obtain ⟨w, parts, hw, hparts, rfl⟩ := hstored
  cases hvalue.symm.trans hw
  refine ⟨parts, hparts, fun q hq => ?_⟩
  have hmem : (q.1, Cell.value q.2) ∈ parts.map fun q => (q.1, Cell.value q.2) :=
    List.mem_map_of_mem hq
  -- the first of them has the place of the value, and the others come behind the row
  rw [← List.take_append_drop 1 (parts.map fun q => (q.1, Cell.value q.2))] at hmem
  rcases List.mem_append.1 hmem with hfirst | hrest
  · exact List.mem_append_left _ (List.mem_append_left _ (List.mem_flatMap.2 ⟨_, hpart, hfirst⟩))
  · exact List.mem_append_right _ (List.mem_flatMap.2 ⟨_, hpart, hrest⟩)

/-- **What is stored for a value is sent with its row.** -/
theorem inserts_of_lists (h : r.Lists rule column v i x statements) :
    ∃ parts, column.stored v = .ok parts ∧ r.Inserts rule i x statements parts := by
  obtain ⟨s, s', hroute⟩ := h.routed
  obtain ⟨-, hkeys⟩ := LogicalSql.length_keys_of_route h.insert hroute
  obtain ⟨p, hp, hcolumn, hvalue⟩ := h.given
  have hencrypt : (rule.encrypt.columns? i.table.name).isSome = true := by
    obtain ⟨columns, hcolumns, -⟩ := Editing.exists_of_encryptColumn? hcolumn
    rw [hcolumns]
    rfl
  have hvalues : i.values ≠ [] := by
    rintro hnil
    have hrow := h.row
    rw [show i.rows = [] by rw [Insert.rows, Insert.rowExprs, h.values, hnil]; rfl] at hrow
    cases hrow
  obtain ⟨ys, hwrites, hstatements⟩ :=
    exists_rows_of_physical h.insert h.values hvalues hencrypt h.markers h.sent
  obtain ⟨start, stop, -, hrows⟩ := hwrites.written
  -- the row is read under the names, wherever it goes
  have hread {y : RowPieces} (hy : (r.pieces x).IsEncrypted rule.encrypt [i.table]
      r.sql.parameters i.columns x.1.exprs y) :
      ∃ parts, column.stored v = .ok parts ∧
        ∀ q ∈ parts, (q.1, Cell.value q.2) ∈ (r.columnNames rule i).zip y.cells := by
    obtain ⟨pairs, hstores, hnames, hcells⟩ := exists_pairs h.length (fun k hk => by
      obtain ⟨-, hkey, hgenerated⟩ := Editing.of_generatedKey? hk
      rw [hkeys k.2 hkey hgenerated]
      exact List.snd_lt_of_mem_zipIdx h.row) hy
    obtain ⟨parts, hparts, hmem⟩ := hstores.exists_stored hp hcolumn hvalue
    rw [List.zip_of_prod hnames hcells] at hmem
    exact ⟨parts, hparts, hmem⟩
  obtain ⟨y, -, hy⟩ := Lists.exists_of_forall₂ hwrites.rows h.row
  obtain ⟨parts, hparts, -⟩ := hread hy
  refine ⟨parts, hparts, hwrites.renamed, hwrites.added, start, stop, _, hrows, ?_⟩
  intro p statement hplaced hgoes
  obtain ⟨-, -, cells, hfill, hcells⟩ := (List.forall₂_iff_zip.1 hstatements).2 hplaced
  have hx : x ∈ i.rows.zipIdx.filter fun x =>
      GroupedBinding.goesTo p r.routing.rowNodes[x.2]? := List.mem_filter.2 ⟨h.row, hgoes⟩
  obtain ⟨row, hrow, -, y, hy, rfl⟩ := Lists.exists_mem_zip_of_forall₂ hcells hx
  obtain ⟨parts', hparts', hmem⟩ := hread hy
  cases hparts.symm.trans hparts'
  exact ⟨cells, _, y.cells, hfill, hrow, hmem⟩

end

/-! ### Reading and writing -/

section

variable {rule : Rule} {column : EncryptColumn} {v : Value}

/-- What a condition compares. -/
theorem Asks.exists_compares {r : Routed} {c : ColumnRef} {e : Expr}
    (h : r.Asks rule column v c e) :
    ∃ q, column.queryValue v = .ok q ∧
      Editing.Compares (r.draft rule).edits (r.draft rule).binding c e (column.queryColumn, q) := by
  obtain ⟨statements, hsent⟩ := h.sent
  obtain ⟨leaf, hleaf, hasks⟩ := h.leaf
  obtain ⟨d, found, d₁, halone, hrun, hsub, hbinding⟩ :=
    exists_encryption (Statement.isWhole_of_leaf hleaf) h.encrypted hsent
  obtain ⟨w, q, hw, hq, hcompares⟩ := Editing.compares_of_encryption hleaf hasks h.encrypted
    h.markers (fun index hindex => halone index (Expr.lt_of_resolve hindex h.value)) hrun
  cases h.value.symm.trans hw
  rw [hbinding]
  exact ⟨q, hq, hcompares.mono hsub fun _ _ _ hbinds => hbinds⟩

/-- What an assignment writes. -/
theorem Sets.exists_assigns {r : Routed} {a : Assignment} (h : r.Sets rule column v a) :
    ∃ parts, column.stored v = .ok parts ∧
      Editing.Assigns (r.draft rule).edits (r.draft rule).binding a parts := by
  obtain ⟨statements, hsent⟩ := h.sent
  obtain ⟨d, found, d₁, halone, hrun, hsub, hbinding⟩ :=
    exists_encryption (Statement.isWhole_of_assignment h.assignment) h.encrypted hsent
  obtain ⟨w, parts, hw, hparts, hassigns⟩ := Editing.assigns_of_encryption h.assignment
    h.encrypted h.markers (fun index hindex => halone index (Expr.lt_of_resolve hindex h.value))
    hrun
  cases h.value.symm.trans hw
  rw [hbinding]
  exact ⟨parts, hparts, hassigns.mono hsub⟩

/-- **A condition compares what was written.**  Where the columns behind an encrypted column have
different names, a condition that asks for a value compares one of them with one value, and
whatever statement gives the same value to the column, by an assignment or in a row, writes just
this value under this name.  It does not matter which of the values are literals and which are
parameters. -/
theorem written_value_found (hnames : column.physicalNames.Nodup) {reader : Routed}
    {c : ColumnRef} {e : Expr} (hread : reader.Asks rule column v c e) :
    ∃ name q,
      Editing.Compares (reader.draft rule).edits (reader.draft rule).binding c e (name, q) ∧
      (∀ (writer : Routed) (a : Assignment), writer.Sets rule column v a →
        ∃ pairs, Editing.Assigns (writer.draft rule).edits (writer.draft rule).binding a pairs ∧
          (name, q) ∈ pairs ∧ (pairs.map Prod.fst).Nodup) ∧
      (∀ (writer : Routed) (i : Insert) (x : ValueRow × Nat) (statements : List PhysicalSql),
        writer.Lists rule column v i x statements →
        ∃ pairs, writer.Inserts rule i x statements pairs ∧
          (name, q) ∈ pairs ∧ (pairs.map Prod.fst).Nodup) := by
  obtain ⟨q, hq, hcompares⟩ := hread.exists_compares
  have hfound {parts : List (String × Value)} (hparts : column.stored v = .ok parts) :
      (column.queryColumn, q) ∈ parts ∧ (parts.map Prod.fst).Nodup := by
    obtain ⟨w, hw, hmem⟩ := EncryptColumn.mem_of_stored hparts
    cases hq.symm.trans hw
    rw [EncryptColumn.map_fst_of_stored hparts]
    exact ⟨hmem, hnames⟩
  refine ⟨column.queryColumn, q, hcompares, fun writer a hwrite => ?_,
    fun writer i x statements hwrite => ?_⟩
  · obtain ⟨parts, hparts, hassigns⟩ := hwrite.exists_assigns
    exact ⟨parts, hassigns, hfound hparts⟩
  · obtain ⟨parts, hparts, hinserts⟩ := inserts_of_lists hwrite
    exact ⟨parts, hinserts, hfound hparts⟩

end

end Routed

/-! ### A telephone number that is looked up -/

/-- The rule of users, who are on one data source. -/
def phoneUserRule : Rule := ⟨[], [], [], ["ds_0"], some "ds_0", phoneRule, [], {}⟩

/-- A statement about users after routing. -/
def phoneUserRouted (text : String) (statement : Statement) (parameters : List Value) : Routed :=
  ⟨⟨text, statement, parameters⟩, { placements := [⟨.same "ds_0", [.same "t_user"]⟩] }, none⟩

/-- A query for the users with a telephone number. -/
def phoneQuery : Routed :=
  phoneUserRouted "SELECT name FROM t_user WHERE phone IN ('456', ?)"
    (.select
      { tables := [.ofName "t_user" 17]
        condition := some (.oneOf (.ofName "phone" 30)
          [.literal (.text "456") 40 44, .markerAt 0 47] false) })
    [.text "123"]

/-- An assignment of a telephone number that is given as a literal. -/
def literalPhone : Assignment := ⟨.ofName "phone" 18, .literal (.text "123") 26 30⟩

/-- A change of the telephone number of all users. -/
def phoneSetting : Routed :=
  phoneUserRouted "UPDATE t_user SET phone = '123'"
    (.update { tables := [.ofName "t_user" 7], assignments := [literalPhone] }) []

/-- A row with a telephone number that is given as a parameter. -/
def markedPhone : Insert :=
  .ofValues (.ofName "t_user" 12) [.ofName "phone" 20] 25 [⟨[.markerAt 0 35], 34, 36⟩]

/-- An insertion of a user with the telephone number. -/
def phoneInsertion : Routed :=
  phoneUserRouted "INSERT INTO t_user (phone) VALUES (?)" (.insert markedPhone) [.text "123"]

/-- What is sent for the insertion. -/
def phoneInsertions : List PhysicalSql :=
  [⟨"ds_0", "INSERT INTO t_user (phone_cipher, phone_digest, phone_plain) VALUES (?, ?, ?)",
    [.text "202cb962ac59075b964b07152d234b70", .text "202cb962ac59075b964b07152d234b70",
      .text "123"]⟩]

namespace Routed

theorem asks_phoneQuery : phoneQuery.Asks phoneUserRule phoneColumn (.text "123")
    (.ofName "phone" 30) (.markerAt 0 47) where
  sent := by
    refine ⟨[⟨"ds_0",
      "SELECT name FROM t_user WHERE phone_digest IN ('250cf8b51c773f3f8dc8b4be867a9a02', ?)",
      [.text "202cb962ac59075b964b07152d234b70"]⟩], ?_⟩
    rw [physical_of_pairwise (by decide +kernel)]
    decide +kernel
  leaf := ⟨_, List.mem_singleton_self _, .among (by simp)⟩
  encrypted := rfl
  value := rfl
  markers := by decide

theorem sets_phoneSetting :
    phoneSetting.Sets phoneUserRule phoneColumn (.text "123") literalPhone where
  sent := by
    refine ⟨[⟨"ds_0", "UPDATE t_user SET phone_cipher = '202cb962ac59075b964b07152d234b70', " ++
      "phone_digest = '202cb962ac59075b964b07152d234b70', phone_plain = '123'", []⟩], ?_⟩
    rw [physical_of_pairwise (by decide +kernel)]
    decide +kernel
  assignment := List.mem_singleton_self _
  encrypted := rfl
  value := rfl
  markers := by decide

theorem lists_phoneInsertion : phoneInsertion.Lists phoneUserRule phoneColumn (.text "123")
    markedPhone (⟨[.markerAt 0 35], 0⟩, 0) phoneInsertions where
  routed := ⟨phoneUserRule.start, phoneUserRule.start, rfl⟩
  sent := by
    have harrange : Splice.arrange (phoneInsertion.draft phoneUserRule).edits =
        [.encryption 20 24 "phone_cipher", .insertColumns 25 ["phone_digest", "phone_plain"],
          .insertRows 34 36 [⟨[.expr (.markerAt 0 35), .marker, .marker], []⟩]] :=
      Splice.arrange_eq_of_perm (by decide +kernel) (by decide +kernel)
    rw [physical_of_arrange harrange]
    decide +kernel
  insert := rfl
  values := rfl
  row := List.mem_singleton_self _
  length := rfl
  given := ⟨_, List.mem_singleton_self _, rfl, rfl⟩
  markers := rfl

/-- A query finds a telephone number that was written by a change and by an insertion. -/
theorem written_value_found_phone :
    phoneColumn.physicalNames.Nodup ∧
      phoneQuery.Asks phoneUserRule phoneColumn (.text "123") (.ofName "phone" 30)
        (.markerAt 0 47) ∧
      phoneSetting.Sets phoneUserRule phoneColumn (.text "123") literalPhone ∧
      phoneInsertion.Lists phoneUserRule phoneColumn (.text "123") markedPhone
        (⟨[.markerAt 0 35], 0⟩, 0) phoneInsertions ∧
      ∃ name q,
        Editing.Compares (phoneQuery.draft phoneUserRule).edits
          (phoneQuery.draft phoneUserRule).binding (.ofName "phone" 30) (.markerAt 0 47)
          (name, q) ∧
        (∃ pairs, Editing.Assigns (phoneSetting.draft phoneUserRule).edits
          (phoneSetting.draft phoneUserRule).binding literalPhone pairs ∧ (name, q) ∈ pairs) ∧
        (∃ pairs, phoneInsertion.Inserts phoneUserRule markedPhone (⟨[.markerAt 0 35], 0⟩, 0)
          phoneInsertions pairs ∧ (name, q) ∈ pairs) := by
  have hnames : phoneColumn.physicalNames.Nodup := by decide
  obtain ⟨name, q, hcompares, hassigned, hlisted⟩ := written_value_found hnames asks_phoneQuery
  obtain ⟨written, hwritten, hfound, -⟩ := hassigned _ _ sets_phoneSetting
  obtain ⟨inserted, hinserted, hlooked, -⟩ := hlisted _ _ _ _ lists_phoneInsertion
  exact ⟨hnames, asks_phoneQuery, sets_phoneSetting, lists_phoneInsertion, name, q, hcompares,
    ⟨written, hwritten, hfound⟩, inserted, hinserted, hlooked⟩

end Routed

end ShardedSql
