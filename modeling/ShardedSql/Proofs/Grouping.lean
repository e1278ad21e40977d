/-
**All rows at once are grouped by their keys.**

Rows are taken in one after another.  After some rows there is one group for each key among them, in
the order in which the keys came first, and it is what the rows with its key alone make of a new
group.  So the rows of a key can be looked at by themselves.

Main definitions:

* `ShardedSql.Group.keyOf`, `ShardedSql.Group.keysOf` — the key of a row, and the different keys of
  some rows;
* `ShardedSql.Group.ofRun` — the group of some rows that have one key;
* `ShardedSql.Group.atKey`, `ShardedSql.Group.rowAt` — the group of the rows with a key, and its
  row.

Main results:

* `ShardedSql.Group.foldlM_addRow_eq_ok` — **taking rows in makes the group of each key**;
* `ShardedSql.Group.collect_fst` — the groups of some cursors are those of all their rows;
* `ShardedSql.Group.keyOf_rowAt` — **aggregating leaves the key as it is**;
* `ShardedSql.Group.ofCursors_eq_ok` — the rows of the groups of some cursors.
-/

import ShardedSql.Proofs.CursorQueue
import ShardedSql.Proofs.Outcome

set_option relaxedAutoImplicit false
set_option autoImplicit false

namespace ShardedSql

/-! ### Columns of a row -/

/-- Columns of a row are read when the row has all of them. -/
theorem mapM_getElem?_eq_ok {ι : Type} {l : List ι} {row : Row} {index : ι → Nat}
    {fault : ι → Fault} {values : List Value} :
    (l.mapM fun i => match row[index i]? with
      | some v => (.ok v : Outcome Value)
      | none => .error (fault i)) = .ok values ↔
    (∀ i ∈ l, index i < row.length) ∧ values = l.map fun i => row.getD (index i) .null := by
  rw [Outcome.mapM_eq_ok]
  induction l generalizing values with
  | nil =>
      rw [List.forall₂_nil_left_iff]
      simp
  | cons i l ih =>
      rw [List.forall₂_cons_left_iff]
      constructor
      · rintro ⟨v, rest, hv, hrest, rfl⟩
        obtain ⟨hwide, rfl⟩ := ih.1 hrest
        cases hget : row[index i]? with
        | none =>
            rw [hget] at hv
            cases hv
        | some u =>
            rw [hget] at hv
            cases hv
            have hvalue : row.getD (index i) .null = v := by
              rw [List.getD_eq_getElem?_getD, hget]
              rfl
            rw [List.map_cons, hvalue]
            exact ⟨List.forall_mem_cons.2 ⟨(List.getElem?_eq_some_iff.1 hget).1, hwide⟩, rfl⟩
      · rintro ⟨hwide, rfl⟩
        obtain ⟨hi, hwide⟩ := List.forall_mem_cons.1 hwide
        refine ⟨row.getD (index i) .null, _, ?_, ih.2 ⟨hwide, rfl⟩, rfl⟩
        rw [List.getD_eq_getElem?_getD, List.getElem?_eq_getElem hi]
        rfl

theorem SortKey.extract_eq_ok {keys : List SortKey} {row : Row} {values : List Value} :
    extract keys row = .ok values ↔
      (∀ k ∈ keys, k.index < row.length) ∧ values = valuesOf keys row := mapM_getElem?_eq_ok

/-! ### Reading all rows of a cursor -/

theorem mapM_rowValue_range (row : Row) :
    (List.range row.length).mapM (rowValue row) = .ok row := by
  rw [Outcome.mapM_eq_ok, List.forall₂_iff_get]
  refine ⟨List.length_range, fun i h₁ h₂ => ?_⟩
  rw [List.get_eq_getElem, List.get_eq_getElem, List.getElem_range, rowValue,
    List.getElem?_eq_getElem h₂]

namespace Cursor

variable {c : Cursor}

/-- The row that a cursor stands on, when it is as wide as the labels say. -/
theorem row_eq {row : Row} (hplan : c.plan = .none) (hcurrent : c.current = some row)
    (hwide : row.length = c.labels.length) : c.row = .ok row := by
  have hcell : c.cell = rowValue row := funext fun column => cell_eq_rowValue hplan hcurrent column
  rw [Cursor.row, hcell, ← hwide, mapM_rowValue_range]

/-- **A computation over all rows of a cursor is one over the list of them.** -/
theorem foldRows_fst {σ : Type} (step : σ → Row → Outcome σ) (s : σ) (hplan : c.plan = .none)
    (hwide : ∀ row ∈ c.rest, row.length = c.labels.length) :
    (c.foldRows step s).1 = c.rest.foldlM step s := by
  suffices hspec : ∀ (rows : List Row) (n : Nat) (s : σ) (c : Cursor), c.plan = .none →
      c.rest = rows → (∀ row ∈ rows, row.length = c.labels.length) → rows.length < n →
      (foldUpTo step n s c).1 = rows.foldlM step s from
    hspec c.rest (c.rest.length + 1) s c hplan rfl hwide (Nat.lt_succ_self _)
  intro rows
  induction rows with
  | nil =>
      intro n s c hplan hrest _ hn
      obtain ⟨n, rfl⟩ := Nat.exists_eq_succ_of_ne_zero (Nat.ne_of_gt hn)
      simp only [foldUpTo, advance_nil hplan hrest]
      rfl
  | cons row rows ih =>
      intro n s c hplan hrest hwide hn
      obtain ⟨n, rfl⟩ := Nat.exists_eq_succ_of_ne_zero (Nat.ne_of_gt (Nat.zero_lt_of_lt hn))
      have hrow : Cursor.row { c with nexts := c.nexts + 1, current := some row, rest := rows } =
          .ok row :=
        row_eq hplan rfl (hwide row (List.mem_cons_self ..))
      have hstep :
          (Cursor.row { c with nexts := c.nexts + 1, current := some row, rest := rows } >>= step s) =
            step s row := by
        rw [hrow]
        rfl
      simp only [foldUpTo, advance_cons hplan hrest, hstep, List.foldlM_cons]
      cases step s row with
      | error f => rfl
      | ok s' =>
          exact ih n s' _ hplan rfl (fun r hr => hwide r (List.mem_cons_of_mem row hr))
            (Nat.lt_of_succ_lt_succ hn)

end Cursor

namespace Group

/-! ### Keys -/

/-- The values of a row in some columns, null where there is no such column. -/
def keyOf (columns : List Nat) (row : Row) : List Value := columns.map fun i => row.getD i .null

/-- The different keys of some rows, in the order in which they come. -/
def keysOf (columns : List Nat) (rows : List Row) : List (List Value) :=
  (rows.map (keyOf columns)).eraseDups

variable {groupColumns : List Nat} {columns : List AggregateColumn} {key : List Value} {row : Row}
  {rows : List Row} {g g' : Group} {gs gs' : List Group}

theorem groupKey_eq_ok :
    groupKey groupColumns row = .ok key ↔
      (∀ i ∈ groupColumns, i < row.length) ∧ key = keyOf groupColumns row := mapM_getElem?_eq_ok

/-- When the sort keys are the columns of the key, the values that count are the key. -/
theorem valuesOf_eq_keyOf (keys : List SortKey) (row : Row) :
    SortKey.valuesOf keys row = keyOf (keys.map (·.index)) row := by
  rw [SortKey.valuesOf, keyOf, List.map_map]
  rfl

theorem mem_keysOf :
    key ∈ keysOf groupColumns rows ↔ ∃ row ∈ rows, keyOf groupColumns row = key := by
  rw [keysOf, List.mem_eraseDups, List.mem_map]

/-- Some row has each of the keys. -/
theorem filter_ne_nil (h : key ∈ keysOf groupColumns rows) :
    (rows.filter fun r => keyOf groupColumns r = key) ≠ [] := by
  obtain ⟨r, hr, hkey⟩ := mem_keysOf.1 h
  exact List.ne_nil_of_mem (List.mem_filter.2 ⟨hr, by simpa using hkey⟩)

theorem nodup_keysOf (groupColumns : List Nat) (rows : List Row) :
    (keysOf groupColumns rows).Nodup := Lists.nodup_eraseDups (rows.map (keyOf groupColumns))

/-! ### The group of a key -/

/-- The group of some rows that have one key. -/
def ofRun (columns : List AggregateColumn) (key : List Value) (rows : List Row) : Outcome Group :=
  rows.foldlM (fun g row => mergeInto columns row g) (start columns key (rows.headD []))

/-- The group of the rows with a key among some rows. -/
def atKey (groupColumns : List Nat) (columns : List AggregateColumn) (rows : List Row)
    (key : List Value) : Outcome Group :=
  ofRun columns key (rows.filter fun row => keyOf groupColumns row = key)

/-- The row of the group of a key. -/
def rowAt (groupColumns : List Nat) (columns : List AggregateColumn) (rows : List Row)
    (key : List Value) : Outcome Row := do
  let g ← atKey groupColumns columns rows key
  g.finish columns

/-- Taking a row in changes neither the key nor the first row of a group. -/
theorem mergeInto_spec (h : mergeInto columns row g = .ok g') :
    g'.key = g.key ∧ g'.first = g.first := by
  obtain ⟨tallies, -, h⟩ := Outcome.bind_eq_ok.1 h
  cases h
  exact ⟨rfl, rfl⟩

theorem foldlM_mergeInto_spec
    (h : rows.foldlM (fun g row => mergeInto columns row g) g = .ok g') :
    g'.key = g.key ∧ g'.first = g.first := by
  induction rows generalizing g with
  | nil =>
      cases h
      exact ⟨rfl, rfl⟩
  | cons row rows ih =>
      rw [List.foldlM_cons] at h
      obtain ⟨g₁, hmerge, hrest⟩ := Outcome.bind_eq_ok.1 h
      obtain ⟨hkey, hfirst⟩ := ih hrest
      obtain ⟨hkey₁, hfirst₁⟩ := mergeInto_spec hmerge
      exact ⟨hkey.trans hkey₁, hfirst.trans hfirst₁⟩

theorem ofRun_spec (h : ofRun columns key rows = .ok g) :
    g.key = key ∧ g.first = rows.headD [] := foldlM_mergeInto_spec h

theorem ofRun_singleton :
    ofRun columns key [row] = mergeInto columns row (start columns key row) := by
  rw [ofRun, List.foldlM_cons]
  exact bind_pure _

theorem ofRun_concat (hne : rows ≠ []) :
    ofRun columns key (rows ++ [row]) = ofRun columns key rows >>= mergeInto columns row := by
  have hhead : (rows ++ [row]).headD [] = rows.headD [] := by
    cases rows with
    | nil => exact absurd rfl hne
    | cons r rows => rfl
  rw [ofRun, ofRun, hhead, List.foldlM_append]
  refine bind_congr fun g => ?_
  rw [List.foldlM_cons]
  exact bind_pure _

/-! ### Taking rows in -/

/-- A row with another key adds a group. -/
theorem addTo_of_not_mem (h : key ∉ gs.map Group.key) :
    addTo columns key row gs =
      mergeInto columns row (start columns key row) >>= fun g => pure (gs ++ [g]) := by
  induction gs with
  | nil => rfl
  | cons g gs ih =>
      rw [List.map_cons, List.mem_cons, not_or] at h
      rw [addTo, if_neg (Ne.symm h.1), ih h.2]
      simp only [bind_assoc, pure_bind, List.cons_append]

/-- A row is taken in to a group if it has its key. -/
def offer (columns : List AggregateColumn) (key : List Value) (row : Row) (g : Group) :
    Outcome Group := if g.key = key then mergeInto columns row g else pure g

/-- A row whose key came before is taken in to the group with it. -/
theorem addTo_of_mem (hnodup : (gs.map Group.key).Nodup) (h : key ∈ gs.map Group.key) :
    addTo columns key row gs = gs.mapM (offer columns key row) := by
  induction gs with
  | nil => cases h
  | cons g gs ih =>
      rw [List.map_cons, List.nodup_cons] at hnodup
      rw [addTo, List.mapM_cons, offer]
      by_cases hg : g.key = key
      · -- no other group has the key
        have hrest : gs.mapM (offer columns key row) = .ok gs := by
          rw [Outcome.mapM_eq_ok, List.forall₂_same]
          intro g' hg'
          refine if_neg fun he => hnodup.1 ?_
          rw [hg, ← he]
          exact List.mem_map_of_mem hg'
        rw [if_pos hg, if_pos hg, hrest]
        rfl
      · rw [List.map_cons, List.mem_cons] at h
        rw [if_neg hg, if_neg hg, ih hnodup.2 (h.resolve_left (Ne.symm hg)), pure_bind]

theorem atKey_concat_of_ne (h : keyOf groupColumns row ≠ key) :
    atKey groupColumns columns (rows ++ [row]) key = atKey groupColumns columns rows key := by
  rw [atKey, atKey, List.filter_append, List.filter_cons_of_neg (by simpa using h), List.filter_nil,
    List.append_nil]

theorem atKey_concat_self :
    atKey groupColumns columns (rows ++ [row]) (keyOf groupColumns row) =
      ofRun columns (keyOf groupColumns row)
        ((rows.filter fun r => keyOf groupColumns r = keyOf groupColumns row) ++ [row]) := by
  rw [atKey, List.filter_append, List.filter_cons_of_pos (by simp), List.filter_nil]

/-- One more row is offered to the group of each key that came before. -/
theorem atKey_concat_of_mem (h : key ∈ keysOf groupColumns rows) :
    atKey groupColumns columns (rows ++ [row]) key =
      atKey groupColumns columns rows key >>= offer columns (keyOf groupColumns row) row := by
  have hoffer : ∀ g, atKey groupColumns columns rows key = .ok g →
      offer columns (keyOf groupColumns row) row g =
        if key = keyOf groupColumns row then mergeInto columns row g else pure g := by
    intro g hg
    rw [offer, (ofRun_spec hg).1]
  by_cases hkey : keyOf groupColumns row = key
  · subst hkey
    rw [atKey_concat_self, ofRun_concat (filter_ne_nil h), ← atKey]
    cases hat : atKey groupColumns columns rows (keyOf groupColumns row) with
    | error f => rfl
    | ok g => exact ((hoffer g hat).trans (if_pos rfl)).symm
  · rw [atKey_concat_of_ne hkey]
    cases hat : atKey groupColumns columns rows key with
    | error f => rfl
    | ok g => exact ((hoffer g hat).trans (if_neg (Ne.symm hkey))).symm

/-- The first row of the group of a key is a row with the key. -/
theorem first_of_atKey (hkey : key ∈ keysOf groupColumns rows)
    (h : atKey groupColumns columns rows key = .ok g) :
    g.first ∈ rows ∧ keyOf groupColumns g.first = key := by
  obtain ⟨first, rest, hcons⟩ := List.exists_cons_of_ne_nil (filter_ne_nil hkey)
  have hfirst := (ofRun_spec h).2
  rw [hcons, List.headD_cons] at hfirst
  have hmem : first ∈ rows.filter fun r => keyOf groupColumns r = key := by
    rw [hcons]
    exact List.mem_cons_self ..
  obtain ⟨hrows, hfirstkey⟩ := List.mem_filter.1 hmem
  rw [hfirst]
  exact ⟨hrows, by simpa using hfirstkey⟩

theorem keys_of_mapM_atKey {keys : List (List Value)}
    (h : keys.mapM (atKey groupColumns columns rows) = .ok gs) : gs.map Group.key = keys :=
  Outcome.map_eq_of_mapM h fun _ _ _ hg => (ofRun_spec hg).1

/-- One more row is taken in to the group of its key, or begins it. -/
theorem addTo_eq_ok :
    (∃ gs₀, (keysOf groupColumns rows).mapM (atKey groupColumns columns rows) = .ok gs₀ ∧
      addTo columns (keyOf groupColumns row) row gs₀ = .ok gs) ↔
    (keysOf groupColumns (rows ++ [row])).mapM (atKey groupColumns columns (rows ++ [row])) =
      .ok gs := by
  have hkeys : keysOf groupColumns (rows ++ [row]) =
      if keyOf groupColumns row ∈ keysOf groupColumns rows then keysOf groupColumns rows
      else keysOf groupColumns rows ++ [keyOf groupColumns row] := by
    rw [keysOf, List.map_append, List.map_singleton, Lists.eraseDups_concat]
    simp only [keysOf, List.mem_eraseDups]
  rw [hkeys]
  by_cases hmem : keyOf groupColumns row ∈ keysOf groupColumns rows
  · rw [if_pos hmem, Outcome.mapM_congr fun key hkey => atKey_concat_of_mem hkey,
      Outcome.mapM_bind_eq_ok]
    refine exists_congr fun gs₀ => and_congr_right fun h => ?_
    have hgs := keys_of_mapM_atKey h
    rw [addTo_of_mem (hgs ▸ nodup_keysOf groupColumns rows) (hgs ▸ hmem)]
  · have hsame : (keysOf groupColumns rows).mapM (atKey groupColumns columns (rows ++ [row])) =
        (keysOf groupColumns rows).mapM (atKey groupColumns columns rows) :=
      Outcome.mapM_congr fun key hkey => atKey_concat_of_ne fun he => hmem (he ▸ hkey)
    have hnone : (rows.filter fun r => keyOf groupColumns r = keyOf groupColumns row) = [] := by
      refine List.filter_eq_nil_iff.2 fun r hr hrow => hmem ?_
      exact mem_keysOf.2 ⟨r, hr, by simpa using hrow⟩
    rw [if_neg hmem, List.mapM_append, hsame, Outcome.bind_eq_ok]
    refine exists_congr fun gs₀ => and_congr_right fun h => ?_
    rw [addTo_of_not_mem (keys_of_mapM_atKey h ▸ hmem), List.mapM_cons, atKey_concat_self, hnone,
      List.nil_append, ofRun_singleton]
    simp only [List.mapM_nil, pure_bind, bind_assoc]

/-- **Taking rows in makes the group of each key**, and it succeeds if each of these can be made and
every row has the columns of the key. -/
theorem foldlM_addRow_eq_ok :
    rows.foldlM (addRow groupColumns columns) [] = .ok gs ↔
      (∀ row ∈ rows, ∀ i ∈ groupColumns, i < row.length) ∧
        (keysOf groupColumns rows).mapM (atKey groupColumns columns rows) = .ok gs := by
  induction rows using List.reverseRecOn generalizing gs with
  | nil =>
      rw [List.foldlM_nil]
      exact ⟨fun h => ⟨fun row hrow => absurd hrow List.not_mem_nil, h⟩, fun h => h.2⟩
  | append_singleton rows row ih =>
      have hstep : ∀ gs₀, [row].foldlM (addRow groupColumns columns) gs₀ =
          groupKey groupColumns row >>= fun key => addTo columns key row gs₀ := by
        intro gs₀
        rw [List.foldlM_cons]
        exact bind_pure _
      rw [List.foldlM_append, Outcome.bind_eq_ok, ← addTo_eq_ok]
      simp only [ih, hstep, Outcome.bind_eq_ok, groupKey_eq_ok]
      constructor
      · rintro ⟨gs₀, ⟨hwide, hgs₀⟩, key, ⟨hrow, rfl⟩, hadd⟩
        refine ⟨fun r hr => ?_, gs₀, hgs₀, hadd⟩
        rcases List.mem_append.1 hr with hr | hr
        · exact hwide r hr
        · rw [List.mem_singleton.1 hr]
          exact hrow
      · rintro ⟨hwide, gs₀, hgs₀, hadd⟩
        refine ⟨gs₀, ⟨fun r hr => hwide r (List.mem_append_left _ hr), hgs₀⟩, _,
          ⟨hwide row (by simp), rfl⟩, hadd⟩

/-! ### The rows of groups -/

theorem finish_cons (c : AggregateColumn) (columns : List AggregateColumn) (key : List Value)
    (first : Row) (a : Accumulator) (tallies : List Accumulator) :
    finish (c :: columns) ⟨key, first, a :: tallies⟩ =
      a.result >>= fun v => finish columns ⟨key, first.set c.index v, tallies⟩ := by
  simp only [finish, List.zip_cons_cons, List.foldlM_cons, bind_assoc, pure_bind]

/-- Aggregating replaces the values of the aggregated columns only. -/
theorem finish_spec (h : g.finish columns = .ok row) :
    row.length = g.first.length ∧
      ∀ i, (∀ c ∈ columns, c.index ≠ i) → row[i]? = g.first[i]? := by
  obtain ⟨key, first, tallies⟩ := g
  induction columns generalizing first tallies with
  | nil =>
      cases h
      exact ⟨rfl, fun _ _ => rfl⟩
  | cons c columns ih =>
      cases tallies with
      | nil =>
          cases h
          exact ⟨rfl, fun _ _ => rfl⟩
      | cons a tallies =>
          rw [finish_cons] at h
          obtain ⟨v, -, hrest⟩ := Outcome.bind_eq_ok.1 h
          obtain ⟨hlength, hget⟩ := ih _ _ hrest
          refine ⟨by rw [hlength, List.length_set], fun i hi => ?_⟩
          obtain ⟨hc, hcolumns⟩ := List.forall_mem_cons.1 hi
          rw [hget i hcolumns, List.getElem?_set_ne hc]

/-- **The row of the group of a key has this key**, when no column of the key is aggregated. -/
theorem keyOf_rowAt (haggregated : ∀ c ∈ columns, c.index ∉ groupColumns)
    (hkey : key ∈ keysOf groupColumns rows) (h : rowAt groupColumns columns rows key = .ok row) :
    keyOf groupColumns row = key := by
  obtain ⟨g, hg, hfinish⟩ := Outcome.bind_eq_ok.1 h
  obtain ⟨-, hget⟩ := finish_spec hfinish
  obtain ⟨-, hfirstkey⟩ := first_of_atKey hkey hg
  rw [← hfirstkey, keyOf, keyOf, List.map_inj_left]
  intro i hi
  have hi' : ∀ c ∈ columns, c.index ≠ i := fun c hc he => haggregated c hc (he ▸ hi)
  rw [List.getD_eq_getElem?_getD, List.getD_eq_getElem?_getD, hget i hi']

/-! ### All rows of some cursors -/

/-- The groups of some cursors are those of all their rows. -/
theorem collect_fst (groupColumns : List Nat) (columns : List AggregateColumn) (gs : List Group)
    {cursors : List Cursor} (hplan : ∀ c ∈ cursors, c.plan = .none)
    (hwide : ∀ c ∈ cursors, ∀ row ∈ c.rest, row.length = c.labels.length) :
    (collect groupColumns columns gs cursors).1 =
      (cursors.map (·.rest)).flatten.foldlM (addRow groupColumns columns) gs := by
  induction cursors generalizing gs with
  | nil => rfl
  | cons c cursors ih =>
      have hfold := Cursor.foldRows_fst (addRow groupColumns columns) gs
        (hplan c (List.mem_cons_self ..)) (hwide c (List.mem_cons_self ..))
      rw [List.map_cons, List.flatten_cons, List.foldlM_append, ← hfold, collect]
      generalize c.foldRows (addRow groupColumns columns) gs = p
      obtain ⟨x, c'⟩ := p
      cases x with
      | error f => rfl
      | ok gs' =>
          exact ih gs' (fun d hd => hplan d (List.mem_cons_of_mem c hd))
            fun d hd => hwide d (List.mem_cons_of_mem c hd)

/-- Rows have values that count when they have the columns of all sort keys. -/
theorem mapM_extract_eq_ok {keys : List SortKey} {keyed : List (List Value × Row)} :
    (rows.mapM fun row => SortKey.extract keys row >>= fun values => pure (values, row)) =
        .ok keyed ↔
      (∀ row ∈ rows, ∀ k ∈ keys, k.index < row.length) ∧
        keyed = rows.map fun row => (SortKey.valuesOf keys row, row) := by
  rw [Outcome.mapM_eq_ok]
  induction rows generalizing keyed with
  | nil =>
      rw [List.forall₂_nil_left_iff]
      simp
  | cons row rows ih =>
      rw [List.forall₂_cons_left_iff]
      constructor
      · rintro ⟨p, rest, hp, hrest, rfl⟩
        obtain ⟨hwide, rfl⟩ := ih.1 hrest
        obtain ⟨values, hvalues, hpair⟩ := Outcome.bind_eq_ok.1 hp
        cases hpair
        obtain ⟨hrow, rfl⟩ := SortKey.extract_eq_ok.1 hvalues
        exact ⟨List.forall_mem_cons.2 ⟨hrow, hwide⟩, rfl⟩
      · rintro ⟨hwide, rfl⟩
        obtain ⟨hrow, hwide⟩ := List.forall_mem_cons.1 hwide
        refine ⟨_, _, ?_, ih.2 ⟨hwide, rfl⟩, rfl⟩
        exact Outcome.bind_eq_ok.2 ⟨_, SortKey.extract_eq_ok.2 ⟨hrow, rfl⟩, rfl⟩

theorem rowsOf_eq_ok {keys : List SortKey} {out : List Row} :
    rowsOf columns keys gs = .ok out ↔
      ∃ keyed, gs.mapM (finishKeyed columns keys) = .ok keyed ∧ sortKeyed keys keyed = out := by
  rw [rowsOf, Outcome.bind_eq_ok]
  refine exists_congr fun keyed => and_congr_right fun _ => ?_
  exact ⟨fun h => Except.ok.inj h, fun h => congrArg Except.ok h⟩

/-- Groups are made and finished, and then their values that count are taken. -/
theorem mapM_finishKeyed_eq_ok {keys : List SortKey} {keyed : List (List Value × Row)} :
    (∃ gs, (keysOf groupColumns rows).mapM (atKey groupColumns columns rows) = .ok gs ∧
        gs.mapM (finishKeyed columns keys) = .ok keyed) ↔
      ∃ made, (keysOf groupColumns rows).mapM (rowAt groupColumns columns rows) = .ok made ∧
        (∀ row ∈ made, ∀ k ∈ keys, k.index < row.length) ∧
        keyed = made.map fun row => (SortKey.valuesOf keys row, row) := by
  have hassoc : ∀ key, (atKey groupColumns columns rows key >>= finishKeyed columns keys) =
      rowAt groupColumns columns rows key >>= fun row =>
        SortKey.extract keys row >>= fun values => pure (values, row) := by
    intro key
    exact (bind_assoc _ _ _).symm
  rw [← Outcome.mapM_bind_eq_ok, Outcome.mapM_congr fun key _ => hassoc key,
    Outcome.mapM_bind_eq_ok]
  simp only [mapM_extract_eq_ok]

/-- **The rows of the groups of some cursors**: of each key that comes in their rows, the row of its
group, sorted by the values that count. -/
theorem ofCursors_eq_ok {keys : List SortKey} {cursors : List Cursor} {out : List Row}
    (hplan : ∀ c ∈ cursors, c.plan = .none)
    (hwide : ∀ c ∈ cursors, ∀ row ∈ c.rest, row.length = c.labels.length) :
    (ofCursors groupColumns keys columns cursors).1 = .ok out ↔
      (∀ row ∈ (cursors.map (·.rest)).flatten, ∀ i ∈ groupColumns, i < row.length) ∧
      ∃ rows, (keysOf groupColumns (cursors.map (·.rest)).flatten).mapM
          (rowAt groupColumns columns (cursors.map (·.rest)).flatten) = .ok rows ∧
        (∀ row ∈ rows, ∀ k ∈ keys, k.index < row.length) ∧
        sortKeyed keys (rows.map fun row => (SortKey.valuesOf keys row, row)) = out := by
  have hofCursors : (ofCursors groupColumns keys columns cursors).1 =
      (collect groupColumns columns [] cursors).1 >>= rowsOf columns keys := rfl
  rw [hofCursors, collect_fst groupColumns columns [] hplan hwide, Outcome.bind_eq_ok]
  simp only [foldlM_addRow_eq_ok, rowsOf_eq_ok]
  constructor
  · rintro ⟨gs, ⟨hall, hgs⟩, keyed, hkeyed, hout⟩
    obtain ⟨rows, hmade, hcount, rfl⟩ := mapM_finishKeyed_eq_ok.1 ⟨gs, hgs, hkeyed⟩
    exact ⟨hall, rows, hmade, hcount, hout⟩
  · rintro ⟨hall, rows, hmade, hcount, hout⟩
    obtain ⟨gs, hgs, hkeyed⟩ := mapM_finishKeyed_eq_ok.2 ⟨rows, hmade, hcount, rfl⟩
    exact ⟨gs, ⟨hall, hgs⟩, _, hkeyed, hout⟩

end Group

/-- Groups that are made at once are the rows of the groups of all rows. -/
theorem MergedRows.holdGroups_eq_ok {keys : List SortKey} {groupColumns : List Nat}
    {columns : List AggregateColumn} {cursors : List Cursor} {m : MergedRows} :
    holdGroups keys groupColumns columns cursors = .ok m ↔
      ∃ rows, (Group.ofCursors groupColumns keys columns cursors).1 = .ok rows ∧
        m = .held rows none (Group.ofCursors groupColumns keys columns cursors).2 := by
  unfold holdGroups
  generalize Group.ofCursors groupColumns keys columns cursors = p
  obtain ⟨x, cursors'⟩ := p
  cases x with
  | error f => simp
  | ok rows => simp [eq_comm]

end ShardedSql
