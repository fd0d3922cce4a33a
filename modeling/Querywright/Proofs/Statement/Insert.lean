/-
  An insert puts each value in its own cell.

  * `Cell.Shows`: a cell is the text of a raw value, or the placeholder of an argument that is the
    value. `cells_show`, `rows_show`: so are the cells of VALUES, with consecutive numbers.
  * `Inserted`: what the statement of an insert says of its rows.
  * `insert_fills_cells`: an insert without an upsert is so, whatever the order of the keys of its
    rows after the first, and rows that do not fit are refused.
-/
import Querywright.Proofs.Clause.Cells
import Querywright.Proofs.Select.Fragments
import Querywright.Proofs.Statement.Table

namespace Querywright

/-! ## Cells -/

namespace Clause

/-- A cell of VALUES: its text, and its number if it is a placeholder. -/
structure Cell where
  text : String
  number : Option Nat

/-- Whether a cell stands for the value, with these arguments. -/
inductive Cell.Shows (arguments : List Value) : Cell → Value → Prop where
  | raw (content : Value) : Shows arguments ⟨content.display, none⟩ (.raw content)
  | bound {v : Value} {k : Nat} (hv : v.isRaw = false) (hk : arguments[k]? = some v) :
    Shows arguments ⟨"?" ++ toString ((k + 1 : Nat) : Int), some (k + 1)⟩ v

/-- The cells of a row stand for its values, and their numbers follow those before them. -/
theorem cells_show (before after : List Value) {values : List Value} {cs : List String}
    (h : cells before.length values = .ok cs) :
    ∃ row : List Cell, cs = row.map Cell.text ∧
      List.Forall₂ (Cell.Shows (before ++ boundValues values ++ after)) row values ∧
      row.filterMap Cell.number = List.range' (before.length + 1) (countBound values) := by
  induction values generalizing before cs with
  | nil =>
    cases h
    exact ⟨[], rfl, .nil, rfl⟩
  | cons v vs ih =>
    cases hr : v.isRaw with
    | true =>
      cases v with
      | raw content =>
        obtain ⟨more, hmore, rfl⟩ := cells_raw_eq_ok.1 h
        obtain ⟨row, rfl, hrow, hnumbers⟩ := ih before hmore
        rw [boundValues_cons_raw hr, countBound_cons_raw hr]
        exact ⟨⟨content.display, none⟩ :: row, rfl, .cons (.raw content) hrow, hnumbers⟩
      | _ => cases hr
    | false =>
      obtain ⟨-, more, hmore, rfl⟩ := (cells_bound_eq_ok hr).1 h
      -- the value joins those before it, and the rest of the row is numbered after it
      have hlength : (before ++ [v]).length = before.length + 1 := List.length_append
      obtain ⟨row, rfl, hrow, hnumbers⟩ := ih (before ++ [v]) (hlength ▸ hmore)
      have hsplit : before ++ boundValues (v :: vs) ++ after
          = before ++ [v] ++ boundValues vs ++ after := by
        rw [boundValues_cons_bound hr, ← List.singleton_append, ← List.append_assoc]
      have hhere : (before ++ boundValues (v :: vs) ++ after)[before.length]? = some v := by
        rw [boundValues_cons_bound hr, List.append_assoc,
          List.getElem?_append_right (Nat.le_refl _), Nat.sub_self]
        rfl
      refine ⟨⟨_, some (before.length + 1)⟩ :: row, rfl,
        .cons (.bound hr hhere) (hsplit ▸ hrow), ?_⟩
      rw [countBound_cons_bound hr, List.range'_succ, ← hlength, ← hnumbers]
      rfl

/-- The cells of all rows stand for their values, numbered row by row. -/
theorem rows_show (before after : List Value) {values : List (List Value)} {tuples : List String}
    {bound : List Value} (h : rows values before.length = .ok (tuples, bound)) :
    ∃ grid : List (List Cell), tuples = grid.map (fun row => tupleOf (row.map Cell.text)) ∧
      List.Forall₂ (List.Forall₂ (Cell.Shows (before ++ bound ++ after))) grid values ∧
      grid.flatten.filterMap Cell.number = List.range' (before.length + 1) bound.length := by
  induction values generalizing before tuples bound with
  | nil =>
    cases h
    exact ⟨[], rfl, .nil, rfl⟩
  | cons row rest ih =>
    rw [rows] at h
    simp only [valuesTuple, bind_eq_ok, pure_eq_ok] at h
    obtain ⟨_, ⟨cs, hcs, rfl⟩, ⟨others, more⟩, hrest, heq⟩ := h
    cases heq
    have hlength : (before ++ boundValues row).length = before.length + countBound row :=
      List.length_append
    rw [← Int.natCast_add, ← hlength] at hrest
    obtain ⟨first, rfl, hfirst, hnumber⟩ := cells_show before (more ++ after) hcs
    obtain ⟨grid, rfl, hgrid, hnumbers⟩ := ih (before ++ boundValues row) hrest
    have hall : before ++ (boundValues row ++ more) ++ after
        = before ++ boundValues row ++ (more ++ after) := by
      simp only [List.append_assoc]
    refine ⟨first :: grid, rfl, .cons (hall ▸ hfirst) ?_, ?_⟩
    · rwa [← List.append_assoc before]
    · rw [List.flatten_cons, List.filterMap_append, hnumber, hnumbers, hlength, Nat.add_right_comm,
        List.range'_append_1, List.length_append]
      rfl

end Clause

namespace Statement

/-! ## Inserts -/

/-- An insert with the given fields is written as `s`. The tuples of VALUES are `grid`, one for each
row and in each a cell for each column, which stands for what the row holds at the column. The
numbers of the cells count the arguments. -/
structure Inserted (fields : List Value) (rows : List Entries) (columns : List Value)
    (grid : List (List Clause.Cell)) (s : Statement) : Prop where
  text : ∃ names ending, columns.map Value.asText? = names.map some ∧
    Clause.returning (RecordKind.field .insert fields "returning") = .ok ending ∧
    s.query = .text ("INSERT "
      ++ Clause.conflictKeyword (RecordKind.field .insert fields "on_conflict")
      ++ "INTO " ++ (RecordKind.field .insert fields "table_name").display ++ " ("
      ++ Value.commas names ++ ") VALUES "
      ++ Value.commas (grid.map fun cells => Clause.tupleOf (cells.map Clause.Cell.text)) ++ ending)
  cells : List.Forall₂ (fun row => List.Forall₂ (fun column cell => ∃ v,
    row.get? column = some v ∧ Clause.Cell.Shows s.arguments cell v) columns) rows grid
  numbers : grid.flatten.filterMap Clause.Cell.number = List.range' 1 s.arguments.length

/-- What an insert without an upsert is made of. -/
theorem insert_plain_eq_ok {strict : Bool} {v : Value} {kind : RecordKind} {fields : List Value}
    {s : Statement} (hv : RecordKind.coerce .insert v = .ok (.record kind fields))
    (hu : isUpsert (RecordKind.field .insert fields "on_conflict") = false)
    (h : insert strict v = .ok s) :
    ∃ rows tuples inserted columns ending fetch,
      Table.ofData (RecordKind.field .insert fields "data") = .ok rows ∧
      Clause.rows rows.values 0 = .ok (tuples, inserted) ∧ rows.columnText = .ok columns ∧
      Clause.returning (RecordKind.field .insert fields "returning") = .ok ending ∧
      s = ⟨.text ("INSERT "
        ++ Clause.conflictKeyword (RecordKind.field .insert fields "on_conflict")
        ++ "INTO " ++ (RecordKind.field .insert fields "table_name").display ++ " (" ++ columns
        ++ ") VALUES " ++ Value.commas tuples ++ ending), inserted, fetch⟩ := by
  rw [insert, hv, ok_bind] at h
  dsimp only at h
  simp only [bind_eq_ok] at h
  obtain ⟨table, htable, rows, hrows, h⟩ := h
  rw [hu, if_neg Bool.false_ne_true, requireTable_eq_ok htable, compileInsert] at h
  simp only [bind_eq_ok, pure_eq_ok] at h
  obtain ⟨⟨tuples, inserted⟩, htuples, columns, hcolumns, ending, hending, rfl⟩ := h
  exact ⟨rows, tuples, inserted, columns, ending, _, hrows, htuples, hcolumns, hending, rfl⟩

/-- Inserts that differ in data with the same table are written as the same statement. -/
theorem insert_congr {strict : Bool} {v v' : Value} {kind kind' : RecordKind}
    {fields fields' : List Value} (hv : RecordKind.coerce .insert v = .ok (.record kind fields))
    (hv' : RecordKind.coerce .insert v' = .ok (.record kind' fields'))
    (hfields : ∀ name, name ≠ "data" →
      RecordKind.field .insert fields' name = RecordKind.field .insert fields name)
    (hone : (RecordKind.field .insert fields' "data").asMap?.isSome
      = (RecordKind.field .insert fields "data").asMap?.isSome)
    (hdata : Table.ofData (RecordKind.field .insert fields' "data")
      = Table.ofData (RecordKind.field .insert fields "data")) :
    insert strict v' = insert strict v := by
  rw [insert, insert, hv, hv', ok_bind, ok_bind]
  dsimp only
  rw [hfields "table_name" (by decide), hfields "on_conflict" (by decide),
    hfields "returning" (by decide), hone, hdata]

/-- Lists that stand in relation to the same list. -/
theorem forall₂_meet {α β γ : Type} {R : α → β → Prop} {S : γ → β → Prop} {xs : List α}
    {ys : List β} {zs : List γ} (h : List.Forall₂ R xs ys) (h' : List.Forall₂ S zs ys) :
    List.Forall₂ (fun x z => ∃ y, R x y ∧ S z y) xs zs := by
  induction h generalizing zs with
  | nil =>
    cases h'
    exact .nil
  | cons hxy _ ih =>
    cases h' with
    | cons hzy hrest => exact .cons ⟨_, hxy, hzy⟩ (ih hrest)

/-- What a written insert says of its rows. -/
theorem exists_inserted {strict : Bool} {v : Value} {kind : RecordKind} {fields rows : List Value}
    {s : Statement} (hv : RecordKind.coerce .insert v = .ok (.record kind fields))
    (hu : isUpsert (RecordKind.field .insert fields "on_conflict") = false)
    (hrows : Table.rowValues (RecordKind.field .insert fields "data") = .ok rows)
    (hdistinct : ∀ entries, Value.map entries ∈ rows → Entries.Distinct entries)
    (h : insert strict v = .ok s) :
    ∃ (first : Entries) (rest : List Entries) (grid : List (List Clause.Cell)),
      rows = (first :: rest).map .map ∧ Inserted fields (first :: rest) first.keys grid s := by
  obtain ⟨t, tuples, inserted, columns, ending, fetch, ht, htuples, hcolumns, hending, rfl⟩ :=
    insert_plain_eq_ok hv hu h
  obtain ⟨first, rest, values, hdata, -, hvalues, rfl⟩ := Table.ofData_eq_ok.1 ht
  rw [hrows] at hdata
  cases hdata
  obtain ⟨names, hnames, rfl⟩ := map_eq_ok.1 hcolumns
  have hfirst := Table.holdsAt_keys (hdistinct first List.mem_cons_self)
    (Entries.textKeys_of_texts hnames)
  have hheld : List.Forall₂ (fun row here => Table.HoldsAt row first.keys here) (first :: rest)
      (first.values :: values) := .cons hfirst (Table.align_eq_ok hvalues)
  obtain ⟨grid, rfl, hgrid, hnumbers⟩ := Clause.rows_show [] [] htuples
  rw [List.append_nil, List.nil_append] at hgrid
  -- row by row, and in each row column by column
  have hcells := (forall₂_meet hheld hgrid).imp fun row cells ⟨here, hhere, hshown⟩ =>
    forall₂_meet hhere hshown
  exact ⟨first, rest, grid, rfl, ⟨names, ending, Value.texts_eq_ok.1 hnames, hending, rfl⟩, hcells,
    hnumbers⟩

/-- Rows that stray from the first are refused. -/
theorem insert_refused (strict : Bool) {v : Value} {kind : RecordKind} {fields rest : List Value}
    {name : String} {first : Entries}
    (hv : RecordKind.coerce .insert v = .ok (.record kind fields))
    (htable : (RecordKind.field .insert fields "table_name").asText? = some name)
    (hblank : Text.isBlankText name = false)
    (hrows : Table.rowValues (RecordKind.field .insert fields "data") = .ok (.map first :: rest))
    (hdistinct : ∀ entries, Value.map entries ∈ Value.map first :: rest → Entries.Distinct entries)
    (hempty : first ≠ []) (hkeys : first.TextKeys) (h : ∃ row ∈ rest, Table.Strays first row) :
    ∃ fault, insert strict v = .error (.shape fault) := by
  obtain ⟨fault, hfault⟩ := Table.ofData_refused hrows hempty hkeys hdistinct h
  refine ⟨fault, ?_⟩
  rw [insert, hv, ok_bind]
  dsimp only
  rw [requireTable_of_text htable hblank, ok_bind, hfault]
  rfl

theorem Table.distinct_of_maps {maps : List Entries} (h : ∀ row ∈ maps, Entries.Distinct row) :
    ∀ entries, Value.map entries ∈ maps.map .map → Entries.Distinct entries := by
  intro entries hmem
  obtain ⟨row, hrow, heq⟩ := List.mem_map.1 hmem
  cases heq
  exact h _ hrow

theorem insert_fills_cells {strict : Bool} {v : Value} {kind : RecordKind}
    {fields rows : List Value}
    (hv : RecordKind.coerce .insert v = .ok (.record kind fields))
    (hrows : Table.rowValues (RecordKind.field .insert fields "data") = .ok rows)
    (hdistinct : ∀ entries, Value.map entries ∈ rows → Entries.Distinct entries) :
    (isUpsert (RecordKind.field .insert fields "on_conflict") = false →
      ∀ s, insert strict v = .ok s →
        (∃ (first : Entries) (rest : List Entries) (grid : List (List Clause.Cell)),
          rows = (first :: rest).map .map ∧ Inserted fields (first :: rest) first.keys grid s) ∧
        ∀ v' kind' fields', RecordKind.coerce .insert v' = .ok (.record kind' fields') →
          (∀ name, name ≠ "data" →
            RecordKind.field .insert fields' name = RecordKind.field .insert fields name) →
          Table.Reordered (RecordKind.field .insert fields "data")
            (RecordKind.field .insert fields' "data") →
          insert strict v' = .ok s) ∧
    ∀ (name : String) (first : Entries) (rest : List Value),
      (RecordKind.field .insert fields "table_name").asText? = some name →
      Text.isBlankText name = false → rows = .map first :: rest → first ≠ [] → first.TextKeys →
      (∃ row ∈ rest, Table.Strays first row) →
      ∃ e, insert strict v = .error e ∧ e.label = "InvalidConfigurationError" := by
  refine ⟨fun hu s h => ⟨exists_inserted hv hu hrows hdistinct h, ?_⟩, ?_⟩
  · intro v' kind' fields' hv' hfields hreordered
    obtain ⟨t, _, _, columns, _, _, ht, _, hcolumns, -⟩ := insert_plain_eq_ok hv hu h
    have ht' := Table.ofData_reordered hreordered hrows hdistinct ht hcolumns
    rw [← h]
    exact insert_congr hv hv' hfields hreordered.isSome_asMap? (ht'.trans ht.symm)
  · rintro name first rest htable hblank rfl hempty hkeys hstrays
    obtain ⟨fault, hfault⟩ := insert_refused strict hv htable hblank hrows hdistinct
      hempty hkeys hstrays
    exact ⟨_, hfault, rfl⟩

/-- The fields of an insert of the rows. -/
def insertOf (rows : List Entries) : List Value :=
  [.text "t", .list (rows.map .map), .null, .null]

theorem field_insertOf (rows rows' : List Entries) {name : String} (h : name ≠ "data") :
    RecordKind.field .insert (insertOf rows) name
      = RecordKind.field .insert (insertOf rows') name := by
  have hdata : (name == "data") = false := beq_false_of_ne h
  simp only [RecordKind.field, RecordKind.fieldNames, insertOf, List.zip_cons_cons,
    List.lookup_cons, hdata]

/-- Two rows with the same keys and raw values in different columns. -/
def sampleFirst : Entries :=
  [(.text "id", .int 3), (.text "n", .raw (.text "now()")), (.text "note", .text "it's")]

def sampleSecond : Entries :=
  [(.text "note", .raw (.text "NULL")), (.text "id", .int 4), (.text "n", .int 5)]

theorem insert_fills_cells_sample :
    (∃ s grid, insert false (.record .insert (insertOf [sampleFirst, sampleSecond])) = .ok s ∧
      Inserted (insertOf [sampleFirst, sampleSecond]) [sampleFirst, sampleSecond] sampleFirst.keys
        grid s ∧
      insert false (.record .insert (insertOf [sampleFirst, sampleSecond.reverse])) = .ok s ∧
      s.arguments.length = 4) ∧
    ∃ e, insert false (.record .insert (insertOf [sampleFirst, sampleFirst.take 2])) = .error e ∧
      e.label = "InvalidConfigurationError" := by
  have hcompiled : (insert false (.record .insert
      (insertOf [sampleFirst, sampleSecond]))).toOption.map (·.arguments.length) = some 4 := by
    decide
  have hpair : ∀ row ∈ [sampleFirst, sampleSecond], Entries.Distinct row := by decide
  have hshort : ∀ row ∈ [sampleFirst, sampleFirst.take 2], Entries.Distinct row := by decide
  have hkeys : sampleFirst.TextKeys := by
    have htexts : Value.texts sampleFirst.keys = .ok ["id", "n", "note"] := rfl
    exact Entries.textKeys_of_texts htexts
  have hperm : List.Forall₂ List.Perm [sampleSecond] [sampleSecond.reverse] :=
    .cons (List.reverse_perm _).symm .nil
  have hstrays : Table.Strays sampleFirst (.map (sampleFirst.take 2)) :=
    .inr ⟨_, .text "note", rfl, by decide⟩
  constructor
  · cases hs : insert false (.record .insert (insertOf [sampleFirst, sampleSecond])) with
    | error e =>
      rw [hs] at hcompiled
      cases hcompiled
    | ok s =>
      rw [hs] at hcompiled
      obtain ⟨⟨first, rest, grid, hrows, hinserted⟩, hreordered⟩ :=
        (insert_fills_cells rfl rfl (Table.distinct_of_maps hpair)).1 rfl s hs
      obtain ⟨rfl, rfl⟩ := List.cons.inj (Table.maps_inj hrows)
      exact ⟨s, grid, rfl, hinserted,
        hreordered _ _ _ rfl (fun _ => field_insertOf _ _) (.list hperm), Option.some.inj hcompiled⟩
  · exact (insert_fills_cells rfl rfl (Table.distinct_of_maps hshort)).2 "t" _ _ rfl rfl rfl nofun
      hkeys ⟨_, List.mem_singleton_self _, hstrays⟩

end Statement
end Querywright
