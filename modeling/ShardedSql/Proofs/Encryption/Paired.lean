/-
**Names and values stay paired.**

The column list of an insertion and its rows grow apart from each other: names are replaced and put
behind the list by one editor and then by another one, and the values of a row are replaced and put
behind it one by one, some written and some bound.  Both follow what is stored for the row, column
by column, with the generated key between the columns that are listed and those that are added.

Main definitions:

* `ShardedSql.Routed.keyPart` — the generated key of a row, under the name of its column;
* `ShardedSql.Routed.StoresRow` — **what is stored for a row**, name by name.

Main results:

* `ShardedSql.Routed.exists_pairs` — a row is read under the names of the column list;
* `ShardedSql.Routed.WritesEncrypted.consumes_rowsFor` — the rows of a placement consume what is
  bound for them;
* `ShardedSql.LogicalSql.encrypted_rows_spec` — **each name of the column list stands for the value
  that is stored under it**.
-/

import ShardedSql.Proofs.Encryption.Insertion

set_option relaxedAutoImplicit false
set_option autoImplicit false

namespace ShardedSql

open Filling

/-! ### Names -/

namespace Expr

variable {rule : EncryptRule} {tables : List TableRef} {parameters : List Value} {c : ColumnRef}
  {e : Expr}

/-- What is stored for an expression is written under the name of its column and those added for
it. -/
theorem IsStoredAs.map_fst {part : List (String × Cell)}
    (h : e.IsStoredAs rule tables parameters c part) :
    part.map Prod.fst = Editing.writtenName rule tables c :: Editing.addedNames rule tables c := by
  unfold IsStoredAs at h
  unfold Editing.writtenName Editing.addedNames
  cases hc : Editing.encryptColumn? rule tables c with
  | none =>
      rw [hc] at h
      cases h
      rfl
  | some column =>
      rw [hc] at h
      obtain ⟨v, parts, -, hparts, rfl⟩ := h
      obtain ⟨cipher, assisted, -, -, hnames, -⟩ := EncryptColumn.exists_of_stored hparts
      rw [List.map_map]
      exact hnames

theorem map_fst_of_stored {given : List (ColumnRef × Expr)} {parts : List (List (String × Cell))}
    (h : List.Forall₂ (fun p part => p.2.IsStoredAs rule tables parameters p.1 part)
      given parts) :
    (parts.flatMap (List.take 1)).map Prod.fst =
        (given.map Prod.fst).map (Editing.writtenName rule tables) ∧
      (parts.flatMap (List.drop 1)).map Prod.fst =
        (given.map Prod.fst).flatMap (Editing.addedNames rule tables) := by
  induction h with
  | nil => exact ⟨rfl, rfl⟩
  | cons hp _ ih =>
      have hnames := hp.map_fst
      obtain ⟨hfirsts, hrest⟩ := ih
      constructor
      · rw [List.flatMap_cons, List.map_append, hfirsts, List.map_take, hnames]
        rfl
      · rw [List.flatMap_cons, List.map_append, hrest, List.map_drop, hnames]
        rfl

end Expr

/-! ### Rows -/

namespace Routed

variable {rule : Rule} {r : Routed} {i : Insert} {x : ValueRow × Nat} {y : RowPieces}

/-- The generated key of a row, under the name of its column. -/
def keyPart (r : Routed) (row : Nat) : List (String × Cell) :=
  (Editing.generatedKey? r).toList.flatMap fun p =>
    (p.2.values[row]?).toList.map fun v => (p.2.column, .value v)

/-- What is stored for a row with its number, name by name: first what is stored under the names of
the listed columns, then the generated key, and then what else is stored for encrypted columns. -/
def StoresRow (r : Routed) (rule : Rule) (i : Insert) (x : ValueRow × Nat)
    (pairs : List (String × Cell)) : Prop :=
  ∃ parts, List.Forall₂ (fun p part =>
      p.2.IsStoredAs rule.encrypt [i.table] r.sql.parameters p.1 part)
      (i.columns.zip x.1.exprs) parts ∧
    pairs = parts.flatMap (List.take 1) ++ r.keyPart x.2 ++ parts.flatMap (List.drop 1)

/-- The names behind the listed columns: that of a generated key, and those that are added for
encrypted columns. -/
def addedNames (r : Routed) (rule : Rule) (i : Insert) : List String :=
  Editing.keyNames r ++ i.columns.flatMap (Editing.addedNames rule.encrypt [i.table])

theorem map_fst_keyPart {row : Nat}
    (hkey : ∀ p ∈ Editing.generatedKey? r, row < p.2.values.length) :
    (r.keyPart row).map Prod.fst = Editing.keyNames r := by
  rw [keyPart, Editing.keyNames]
  cases hp : Editing.generatedKey? r with
  | none => rfl
  | some p =>
      rw [Option.toList_some, List.flatMap_singleton, List.getElem?_eq_getElem (hkey p hp)]
      rfl

theorem map_snd_keyPart : (r.keyPart x.2).map Prod.snd = (r.pieces x).added.map Piece.cell := by
  rw [keyPart, pieces, Editing.rowKey?]
  cases Editing.generatedKey? r with
  | none => rfl
  | some p =>
      rw [Option.toList_some, List.flatMap_singleton, Option.bind_some, List.map_map, List.map_map]
      exact List.map_congr_left fun v _ => (Piece.cell_further _ v).symm

/-- **A row is read under the names of the column list.** -/
theorem exists_pairs (hlength : x.1.exprs.length = i.columns.length)
    (hkey : ∀ p ∈ Editing.generatedKey? r, x.2 < p.2.values.length)
    (h : (r.pieces x).IsEncrypted rule.encrypt [i.table] r.sql.parameters i.columns x.1.exprs y) :
    ∃ pairs, r.StoresRow rule i x pairs ∧
      pairs.map Prod.fst = i.columns.map (Editing.writtenName rule.encrypt [i.table]) ++
        r.addedNames rule i ∧
      pairs.map Prod.snd = y.cells := by
  obtain ⟨parts, hparts, hcells⟩ := h.exists_parts
  obtain ⟨hfirsts, hrest⟩ := Expr.map_fst_of_stored hparts
  rw [List.map_fst_zip hlength.ge] at hfirsts hrest
  refine ⟨_, ⟨parts, hparts, rfl⟩, ?_, ?_⟩
  · rw [List.map_append, List.map_append, hfirsts, hrest, map_fst_keyPart hkey, addedNames,
      List.append_assoc]
  · rw [hcells, ← hlength, List.drop_length, List.map_nil, List.append_nil, List.map_append,
      List.map_append, map_snd_keyPart]

end Routed

/-! ### Placements -/

namespace GroupedBinding

variable {p : Placement} {nodes : List (List DataNode)} {rows : List ValueRow}
  {ys : List RowPieces} {start : Nat}

/-- The parameters at a placement are those of the rows that go there by their own nodes. -/
theorem rowsAt_map_binding
    (h : List.Forall₂ (fun x y => y.nodes = (nodes[x.2]?).getD []) (rows.zipIdx start) ys) :
    rowsAt p (ys.map RowPieces.binding) (nodes.drop start) =
      (ys.filter fun y => goesTo p (some y.nodes)).flatMap fun y => y.binding.parameters := by
  induction rows generalizing start ys with
  | nil =>
      cases h
      rfl
  | cons row rest ih =>
      rw [List.zipIdx_cons] at h
      cases h with
      | @cons _ y _ ys hy hrest =>
          have hsame : goesTo p nodes[start]? = goesTo p (some y.nodes) := by
            rw [goesTo_eq, goesTo_eq, Option.getD_some, hy]
          rw [List.map_cons, rowsAt, List.head?_drop, List.tail_drop, ih hrest, List.filter_cons,
            hsame]
          split
          · rw [List.flatMap_cons]
          · rfl

end GroupedBinding

namespace Routed.WritesEncrypted

variable {rule : Rule} {r : Routed} {i : Insert} {d : Draft} {ys : List RowPieces} {p : Placement}

/-- A row keeps its nodes. -/
theorem nodes_eq (h : r.WritesEncrypted rule i d ys) :
    List.Forall₂ (fun x y => y.nodes = (r.routing.rowNodes[x.2]?).getD []) i.rows.zipIdx ys :=
  h.rows.imp fun x y ⟨_, _, hy⟩ => by rw [hy]; rfl

/-- All values of the rows are read. -/
theorem isRead (h : r.WritesEncrypted rule i d ys)
    (hmarkers : i.markers = List.range r.sql.parameters.length) :
    ∀ y ∈ ys, ∀ q ∈ y.own ++ y.added, q.IsRead := by
  intro y hy
  obtain ⟨x, hx, hencrypted⟩ := Lists.exists_of_forall₂_right h.rows hy
  have hnumbered := i.isNumbered_of_mem_rows hmarkers x.1 (List.fst_mem_of_mem_zipIdx hx)
  refine hencrypted.isRead (fun e he n hn => ?_) fun q hq => ?_
  · obtain ⟨front, rest, hexprs⟩ := List.append_of_mem he
    exact (hnumbered.marker_eq hexprs n hn).2
  · obtain ⟨v, -, rfl⟩ := List.mem_map.1 hq
    exact Piece.isRead_further _ v

/-- **The rows of a placement consume what is bound for them.** -/
theorem consumes_rowsFor (h : r.WritesEncrypted rule i d ys)
    (hmarkers : i.markers = List.range r.sql.parameters.length) (p : Placement) :
    Consumes (Edit.fillRows (Edit.rowsFor (some p) (ys.map RowPieces.draft)))
      (GroupedBinding.rowsAt p (ys.map RowPieces.binding) r.routing.rowNodes)
      ((ys.filter fun y => GroupedBinding.goesTo p (some y.nodes)).map RowPieces.cells) := by
  have hwritten : Edit.rowsFor (some p) (ys.map RowPieces.draft) =
      (ys.filter fun y => GroupedBinding.goesTo p (some y.nodes)).map RowPieces.draft := by
    rw [Edit.rowsFor, List.filter_map]
    exact congrArg (List.map _) (List.filter_congr fun y _ => GroupedBinding.goesTo_nodes p y.draft)
  have hbound := GroupedBinding.rowsAt_map_binding (p := p) h.nodes_eq
  rw [List.drop_zero] at hbound
  rw [hwritten, hbound, Edit.fillRows, List.mapM_map]
  exact Consumes.mapM fun y hy =>
    RowPieces.consumes (h.isRead hmarkers y (List.mem_filter.1 hy).1)

/-- The rows that go to a placement are those with a node there. -/
theorem forall₂_filter (h : r.WritesEncrypted rule i d ys) (p : Placement) :
    List.Forall₂ (fun x y => (r.pieces x).IsEncrypted rule.encrypt [i.table] r.sql.parameters
        i.columns x.1.exprs y)
      (i.rows.zipIdx.filter fun x => GroupedBinding.goesTo p r.routing.rowNodes[x.2]?)
      (ys.filter fun y => GroupedBinding.goesTo p (some y.nodes)) := by
  refine List.rel_filter (fun x y ⟨_, _, hy⟩ => ?_) h.rows
  simp only [GroupedBinding.goesTo_eq, hy, Option.getD_some]
  exact Iff.rfl

end Routed.WritesEncrypted

/-! ### Physical statements -/

section

variable {rule : Rule} {r : Routed} {i : Insert}

/-- Each row of an insertion with `VALUES` has an expression for each column that is listed. -/
theorem Insert.length_exprs_of_values (hset : i.set = none)
    (hlengths : ∀ row ∈ i.values, row.exprs.length = i.columns.length) :
    ∀ row ∈ i.rows, row.exprs.length = i.columns.length := by
  intro row hrow
  have hmem : row.exprs ∈ i.rows.map (·.exprs) := List.mem_map_of_mem hrow
  rw [Insert.map_exprs_rows, Insert.rowExprs, hset] at hmem
  obtain ⟨given, hgiven, hexprs⟩ := List.mem_map.1 hmem
  rw [← hexprs]
  exact hlengths given hgiven

/-- **The rows of the physical statements.**  At each placement the rows that have a node there are
read, each as it is encrypted. -/
theorem Routed.exists_rows_of_physical (hinsert : r.sql.statement = .insert i) (hset : i.set = none)
    (hvalues : i.values ≠ []) (hencrypt : (rule.encrypt.columns? i.table.name).isSome = true)
    (hmarkers : i.markers = List.range r.sql.parameters.length) {statements : List PhysicalSql}
    (hphysical : r.physical rule = .ok statements) :
    ∃ ys, r.WritesEncrypted rule i (r.draft rule) ys ∧
      List.Forall₂ (fun p statement =>
        statement.dataSource = p.source.actual ∧
        Splice.edited r.sql.text (r.draft rule).edits (some p) = .ok statement.text ∧
        ∃ cells,
          (Edit.fillRows (Edit.rowsFor (some p) (ys.map RowPieces.draft))).run
              statement.parameters = some (cells, r.sql.parameters.drop i.rowParameterCount) ∧
          List.Forall₂ (fun x row => x ∈ i.rows.zipIdx ∧ ∃ y,
              (r.pieces x).IsEncrypted rule.encrypt [i.table] r.sql.parameters i.columns x.1.exprs
                y ∧ y.cells = row)
            (i.rows.zipIdx.filter fun x => GroupedBinding.goesTo p r.routing.rowNodes[x.2]?) cells)
        r.routing.placements statements := by
  obtain ⟨⟨u, hrun⟩, -⟩ := physical_eq_ok hphysical
  obtain ⟨ys, hwrites⟩ := writesEncrypted_of_insert hinsert hset hvalues hencrypt hmarkers hrun
  obtain ⟨b, hbinding, hbound, htrailing⟩ := hwrites.bound
  refine ⟨ys, hwrites, (forall₂_of_physical hphysical).imp fun p statement hstatement => ?_⟩
  obtain ⟨hsource, hparameters, htext⟩ := hstatement
  rw [hbinding, Binding.parameters, GroupedBinding.parameters, hbound, htrailing] at hparameters
  have hread := hwrites.consumes_rowsFor hmarkers p (r.sql.parameters.drop i.rowParameterCount)
  rw [← hparameters] at hread
  refine ⟨hsource, htext, _, hread, List.forall₂_map_right_iff.2 ?_⟩
  have hmem := (List.forall₂_and_left _ _).2 ⟨fun x hx => hx, hwrites.forall₂_filter p⟩
  exact hmem.imp fun x y hxy => ⟨(List.mem_filter.1 hxy.1).1, y, hxy.2, rfl⟩

/-- **Each name of the column list stands for the value that is stored under it.**  In an insertion
into a table with encrypted columns the names of these are replaced in place, further names are put
behind the list, and every row has as many values as there are names.  When the markers of the rows
that are written for a placement are filled from left to right with the parameters of its statement,
the parameters that are left over are those behind the rows, and the values of each row are, name by
name, what is stored for the row. -/
theorem LogicalSql.encrypted_rows_spec {sql : LogicalSql} (hinsert : sql.statement = .insert i)
    (hset : i.set = none) (hvalues : i.values ≠ [])
    (hencrypt : ∃ c ∈ i.columns,
      (Editing.encryptColumn? rule.encrypt [i.table] c).isSome = true)
    {stop : Nat} (hstop : i.columnsStop = some stop)
    (hlengths : ∀ row ∈ i.values, row.exprs.length = i.columns.length)
    (hmarkers : i.markers = List.range sql.parameters.length)
    {s s' : Rule.Counters} (hroute : (sql.route rule).run.run s = (.ok r, s'))
    {statements : List PhysicalSql} (hphysical : r.physical rule = .ok statements) :
    ∃ start last rows,
      (r.draft rule).edits.filter Edit.encrypts =
        i.columns.filterMap (Editing.renaming? rule.encrypt [i.table]) ∧
      (r.draft rule).edits.filter Edit.addsColumns =
        Edit.ofColumns (some stop) (r.addedNames rule i) ∧
      (r.draft rule).edits.filter Edit.writesRows = [.insertRows start last rows] ∧
      (∀ row ∈ rows, row.values.length =
        (i.columns.map (Editing.writtenName rule.encrypt [i.table]) ++
          r.addedNames rule i).length) ∧
      List.Forall₂ (fun p statement =>
        statement.dataSource = p.source.actual ∧
        Splice.edited sql.text (r.draft rule).edits (some p) = .ok statement.text ∧
        ∃ cells,
          (Edit.fillRows (Edit.rowsFor (some p) rows)).run statement.parameters =
            some (cells, sql.parameters.drop i.rowParameterCount) ∧
          List.Forall₂ (fun x row => ∃ pairs, r.StoresRow rule i x pairs ∧
              pairs.map Prod.fst = i.columns.map (Editing.writtenName rule.encrypt [i.table]) ++
                r.addedNames rule i ∧
              pairs.map Prod.snd = row)
            (i.rows.zipIdx.filter fun x => GroupedBinding.goesTo p r.routing.rowNodes[x.2]?) cells)
        r.routing.placements statements := by
  obtain ⟨rfl, hkeys⟩ := length_keys_of_route hinsert hroute
  have hsome : (rule.encrypt.columns? i.table.name).isSome = true := by
    obtain ⟨c, -, hc⟩ := hencrypt
    obtain ⟨column, hcolumn⟩ := Option.isSome_iff_exists.1 hc
    obtain ⟨columns, hcolumns, -⟩ := Editing.exists_of_encryptColumn? hcolumn
    rw [hcolumns]
    rfl
  obtain ⟨ys, hwrites, hstatements⟩ :=
    Routed.exists_rows_of_physical hinsert hset hvalues hsome hmarkers hphysical
  obtain ⟨start, last, -, hrows⟩ := hwrites.written
  have hexprs := Insert.length_exprs_of_values hset hlengths
  -- every row is read under the names, wherever it goes
  have hpairs {x : ValueRow × Nat} {y : RowPieces} (hx : x ∈ i.rows.zipIdx)
      (hy : (r.pieces x).IsEncrypted rule.encrypt [i.table] r.sql.parameters i.columns x.1.exprs
        y) := Routed.exists_pairs (hexprs x.1 (List.fst_mem_of_mem_zipIdx hx)) (fun p hp => by
      obtain ⟨hstatement, hk, hgenerated⟩ := Editing.of_generatedKey? hp
      rw [hkeys p.2 hk hgenerated]
      exact List.snd_lt_of_mem_zipIdx hx) hy
  refine ⟨start, last, _, hwrites.renamed, by rw [← hstop]; exact hwrites.added, hrows, ?_, ?_⟩
  · refine List.forall_mem_map.2 fun y hy => ?_
    obtain ⟨x, hx, hencrypted⟩ := Lists.exists_of_forall₂_right
      ((List.forall₂_and_left _ _).2 ⟨fun x hx => hx, hwrites.rows⟩) hy
    obtain ⟨pairs, -, hnames, hcells⟩ := hpairs hencrypted.1 hencrypted.2
    rw [← hnames, List.length_map, ← List.length_map (f := Prod.snd), hcells]
    simp [RowPieces.cells, RowPieces.draft]
  · refine hstatements.imp fun p statement hstatement => ?_
    obtain ⟨hsource, htext, cells, hread, hcells⟩ := hstatement
    refine ⟨hsource, htext, cells, hread, hcells.imp fun x row hxrow => ?_⟩
    obtain ⟨hx, y, hy, hrow⟩ := hxrow
    obtain ⟨pairs, hstores, hnames, hvalues⟩ := hpairs hx hy
    exact ⟨pairs, hstores, hnames, hvalues.trans hrow⟩

end

/-! ### Orders with a telephone number -/

/-- The rule of orders in four tables, of which the telephone numbers are encrypted. -/
def phoneOrderRule : Rule := { gridRule [] with encrypt := ⟨⟨[("t_order", [phoneColumn])]⟩⟩ }

/-- An insertion of two orders with telephone numbers, one of them given as a literal. -/
def phoneOrders : Insert :=
  .ofValues (.ofName "t_order" 12) [.ofName "user_id" 21, .ofName "phone" 30] 35
    [⟨[.markerAt 0 45, .markerAt 1 48], 44, 49⟩,
      ⟨[.markerAt 2 53, .literal (.text "456") 56 60], 52, 61⟩]

/-- Orders of two users. -/
def phoneUsers : LogicalSql where
  text := "INSERT INTO t_order (user_id, phone) VALUES (?, ?), (?, '456')"
  statement := .insert phoneOrders
  parameters := [.int 10, .text "123", .int 11]

/-- The orders after routing. -/
def phoneRouted : Routed := ⟨phoneUsers, twoRouting, some ⟨"order_id", true, [.int 1, .int 2]⟩⟩

/-- The names under which the values of an order are written. -/
def phoneNames : List String :=
  ["user_id", "phone_cipher", "order_id", "phone_digest", "phone_plain"]

/-- The edits of the insertion in the order in which they are made. -/
def phoneEdits : List Edit :=
  [.table 12 18 "t_order", .encryption 30 34 "phone_cipher",
    .insertColumns 35 ["order_id", "phone_digest", "phone_plain"],
    .insertRows 44 61
      [⟨[.expr (.markerAt 0 45), .expr (.markerAt 1 48), .marker, .marker, .marker],
        [⟨"ds_0", "t_order_1"⟩]⟩,
      ⟨[.expr (.markerAt 2 53), .literal (.text "250cf8b51c773f3f8dc8b4be867a9a02"), .marker,
          .literal (.text "250cf8b51c773f3f8dc8b4be867a9a02"), .literal (.text "456")],
        [⟨"ds_1", "t_order_0"⟩]⟩]]

/-- What is sent to each data source. -/
def phoneStatements : List PhysicalSql :=
  [⟨"ds_0", "INSERT INTO t_order_1 (user_id, phone_cipher, order_id, phone_digest, phone_plain) " ++
      "VALUES (?, ?, ?, ?, ?)",
    [.int 10, .text "202cb962ac59075b964b07152d234b70", .int 1,
      .text "202cb962ac59075b964b07152d234b70", .text "123"]⟩,
  ⟨"ds_1", "INSERT INTO t_order_0 (user_id, phone_cipher, order_id, phone_digest, phone_plain) " ++
      "VALUES (?, '250cf8b51c773f3f8dc8b4be867a9a02', ?, '250cf8b51c773f3f8dc8b4be867a9a02', " ++
      "'456')",
    [.int 11, .int 2]⟩]

namespace LogicalSql

/-- The values of both orders are stored under five names. -/
theorem encrypted_rows_spec_phones :
    (phoneUsers.route phoneOrderRule).run.run phoneOrderRule.start =
        (.ok phoneRouted, afterTwoKeys) ∧
      phoneRouted.physical phoneOrderRule = .ok phoneStatements ∧
      ∀ p ∈ twoRouting.placements, ∃ cells : List (List Cell),
        List.Forall₂ (fun x row => ∃ pairs,
            phoneRouted.StoresRow phoneOrderRule phoneOrders x pairs ∧
            pairs.map Prod.fst = phoneNames ∧ pairs.map Prod.snd = row)
          (phoneOrders.rows.zipIdx.filter fun x =>
            GroupedBinding.goesTo p phoneRouted.routing.rowNodes[x.2]?) cells := by
  have hroute : (phoneUsers.route phoneOrderRule).run.run phoneOrderRule.start =
      (.ok phoneRouted, afterTwoKeys) := rfl
  have harrange : Splice.arrange (phoneRouted.draft phoneOrderRule).edits = phoneEdits :=
    Splice.arrange_eq_of_perm (by decide +kernel) (by decide +kernel)
  have hphysical : phoneRouted.physical phoneOrderRule = .ok phoneStatements := by
    rw [Routed.physical_of_arrange harrange]
    decide +kernel
  obtain ⟨start, last, rows, -, -, -, -, hstatements⟩ := encrypted_rows_spec rfl rfl
    (List.cons_ne_nil _ _) (by decide +kernel) rfl (by decide +kernel) rfl hroute hphysical
  refine ⟨hroute, hphysical, fun p hp => ?_⟩
  obtain ⟨statement, -, -, -, cells, -, hcells⟩ := Lists.exists_of_forall₂ hstatements hp
  exact ⟨cells, hcells⟩

end LogicalSql

end ShardedSql
