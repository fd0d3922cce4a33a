/-
  The three ranges of an upsert never collide. The values of the guard come first, those of the
  update next and those of the rows last, while the text has the rows first and the guard last:
  `upsert_binds_in_place`.
-/
import Querywright.Proofs.Clause.Cells
import Querywright.Proofs.Select.Written
import Querywright.Statement.Insert

namespace Querywright.Statement

open Placeholder

/-- The texts of an upsert, its guard apart. -/
def upsertFragments (insert upsert : List Value) (rows : Table) : List String :=
  let data := (RecordKind.field .upsert upsert "data").asMap?.getD []
  (RecordKind.field .insert insert "table_name").display ::
    ((Value.texts rows.columns).toOption.getD [] ++ Clause.rawTexts rows.values.flatten
      ++ entryTexts (Clause.columns (RecordKind.field .upsert upsert "column"))
      ++ data.keys.map Value.display ++ Clause.rawTexts data.values
      ++ entryTexts (Clause.columns (RecordKind.field .insert insert "returning")))

/-- The guard of an upsert. -/
def upsertGuard (upsert : List Value) : Filter :=
  Select.readFilter Select.ofValue (RecordKind.field .upsert upsert "where")

/-- What an insert with an upsert is made of. -/
theorem insert_upsert_eq_ok {strict : Bool} {v : Value} {kind kind' : RecordKind}
    {fields upsert : List Value} {s : Statement}
    (hv : RecordKind.coerce .insert v = .ok (.record kind fields))
    (hu : isUpsert (RecordKind.field .insert fields "on_conflict") = true)
    (hc : RecordKind.coerce .upsert (RecordKind.field .insert fields "on_conflict") =
      .ok (.record kind' upsert))
    (h : insert strict v = .ok s) :
    ∃ rows fetch, Table.ofData (RecordKind.field .insert fields "data") = .ok rows ∧
      compileUpsert strict (RecordKind.field .insert fields "table_name").display rows upsert
        (RecordKind.field .insert fields "returning") fetch = .ok s := by
  rw [insert, hv, ok_bind] at h
  dsimp only at h
  simp only [bind_eq_ok] at h
  obtain ⟨table, htable, rows, hrows, h⟩ := h
  rw [if_pos hu, hc, ok_bind, requireTable_eq_ok htable] at h
  exact ⟨rows, _, hrows, h⟩

theorem compileUpsert_eq_ok {strict : Bool} {table : String} {rows : Table} {upsert : List Value}
    {returning : Value} {fetch : FetchMode} {s : Statement}
    (h : compileUpsert strict table rows upsert returning fetch = .ok s) :
    ∃ data guard written tuples inserted columns target assigned ending,
      (RecordKind.field .upsert upsert "data").asMap? = some data ∧
      (upsertGuard upsert).compile strict "ON CONFLICT WHERE" 0 = .ok guard ∧
      guard.numbered = .ok written ∧
      Clause.rows rows.values (guard.arguments.length + Clause.countBound data.values : Nat) =
        .ok (tuples, inserted) ∧
      rows.columnText = .ok columns ∧
      Clause.conflictTarget (RecordKind.field .upsert upsert "column") = .ok target ∧
      Clause.assignments data guard.arguments.length = .ok assigned ∧
      Clause.returning returning = .ok ending ∧
      s = ⟨.text ("INSERT INTO " ++ table ++ " (" ++ columns ++ ") VALUES " ++ Value.commas tuples
          ++ " ON CONFLICT " ++ target ++ " DO UPDATE SET " ++ assigned
          ++ written.clause "WHERE" ++ ending),
        guard.arguments ++ Clause.boundValues data.values ++ inserted, fetch⟩ := by
  unfold compileUpsert at h
  dsimp only at h
  split at h
  · cases h
  · split at h
    · cases h
    · rename_i data hdata
      simp only [bind_eq_ok, pure_eq_ok] at h
      obtain ⟨guard, hguard, written, hwritten, ⟨tuples, inserted⟩, hrows, columns, hcolumns,
        target, htarget, assigned, hassigned, ending, hending, rfl⟩ := h
      obtain ⟨harguments, -⟩ := FilterPiece.numbered_eq_ok hwritten
      rw [harguments] at hrows hassigned ⊢
      rw [← Int.natCast_add] at hrows
      exact ⟨data, guard, written, tuples, inserted, columns, target, assigned, ending, hdata,
        hguard, hwritten, hrows, hcolumns, htarget, hassigned, hending, rfl⟩

/-- The names of the columns of an insert hold no placeholder where no name does. -/
theorem Table.columnText_plain {rows : Table} {columns : String} (h : rows.columnText = .ok columns)
    (hp : ∀ t ∈ (Value.texts rows.columns).toOption.getD [], Plain t) : Plain columns := by
  rw [Table.columnText] at h
  obtain ⟨texts, htexts, rfl⟩ := map_eq_ok.1 h
  rw [htexts] at hp
  exact joinable_plain.commas hp

/-- The text of an upsert before its rows. -/
theorem upsert_head_plain {table columns : String} (htable : Plain table) (hcolumns : Plain columns) :
    Plain ("INSERT INTO " ++ table ++ " (" ++ columns ++ ") VALUES ") := by
  have hinsert : Plain "INSERT INTO " := plain_of_not_mem (by decide) (by decide)
  have hopen : Plain " (" := plain_of_not_mem (by decide) (by decide)
  have hvalues : Plain ") VALUES " := plain_of_not_mem (by decide) (by decide)
  exact (((hinsert.append htable).append hopen).append hcolumns).append hvalues

/-- The text of an upsert between its rows and its assignments. -/
theorem upsert_middle_plain {target : String} (htarget : Plain target) :
    Plain (" ON CONFLICT " ++ target ++ " DO UPDATE SET ") ∧
      (" ON CONFLICT " ++ target ++ " DO UPDATE SET ").toList.head? = some ' ' := by
  have hon : Plain " ON CONFLICT " := plain_of_not_mem (by decide) (by decide)
  have hdo : Plain " DO UPDATE SET " := plain_of_not_mem (by decide) (by decide)
  refine ⟨(hon.append htarget).append hdo, ?_⟩
  rw [String.append_assoc, String.toList_append]
  rfl

/-- The largest index of the three ranges is the number of all values. -/
theorem highest_ranges {is : List Int} {g : Nat} (h : highest 0 is = g) (u i : Nat) :
    highest 0 (Clause.indexes (g + u : Nat) i ++ Clause.indexes g u ++ is) = (g + u + i : Nat) := by
  have hupdate := Clause.highest_indexes (Int.natCast_nonneg g) u
  have hrows := Clause.highest_indexes (Int.natCast_nonneg (g + u)) i
  rw [highest_append_max, highest_append_max, h]
  omega

/-- An insert of the rows whose upsert updates the data under the written guard. Every value is
bound in its own place: with `g` values in the guard and `u` in the update, the placeholders of
VALUES take the indexes after `g + u`, those of SET the indexes after `g`, and the guard keeps the
indexes `is` that it takes alone. -/
structure UpsertBinds (rows : Table) (data : Entries) (guard : FilterPiece) (is : List Int)
    (s : Statement) : Prop where
  arguments : s.arguments = guard.arguments ++ Clause.boundValues data.values
    ++ Clause.boundValues rows.values.flatten
  within : ∀ i ∈ is, i ≤ guard.arguments.length
  text : ∃ (head : String) (tuples : List (List String)) (middle : String) (cells : List String)
    (written : FilterPiece) (ending sql : String),
    s.query = .text sql ∧
    sql = head ++ Value.commas (tuples.map Clause.tupleOf) ++ middle
      ++ Clause.assignmentsOf data.keys cells ++ written.clause "WHERE" ++ ending ∧
    tuples.map List.length = rows.values.map List.length ∧
    Clause.Placed (guard.arguments.length + Clause.countBound data.values) rows.values.flatten
      tuples.flatten s.arguments ∧
    Clause.Placed guard.arguments.length data.values cells s.arguments ∧
    guard.numbered = .ok written ∧
    scan head = .ok [] ∧ scan middle = .ok [] ∧ scan ending = .ok [] ∧
    resolve sql 0 = .ok (Clause.indexes (guard.arguments.length + Clause.countBound data.values : Nat)
        (Clause.countBound rows.values.flatten)
      ++ Clause.indexes guard.arguments.length (Clause.countBound data.values) ++ is) ∧
    highestIndex sql 0 = .ok s.arguments.length

theorem upsert_binds_in_place {strict : Bool} {v : Value} {kind kind' : RecordKind}
    {fields upsert : List Value} {rows : Table} {s : Statement}
    (hv : RecordKind.coerce .insert v = .ok (.record kind fields))
    (hu : isUpsert (RecordKind.field .insert fields "on_conflict") = true)
    (hc : RecordKind.coerce .upsert (RecordKind.field .insert fields "on_conflict") =
      .ok (.record kind' upsert))
    (hrows : Table.ofData (RecordKind.field .insert fields "data") = .ok rows)
    (h : insert strict v = .ok s)
    (hquotes : ∀ t ∈ upsertFragments fields upsert rows ++ (upsertGuard upsert).texts,
      Balanced t.toList)
    (hmarks : ∀ t ∈ upsertFragments fields upsert rows, scan t = .ok []) :
    ∃ data guard is, (RecordKind.field .upsert upsert "data").asMap? = some data ∧
      (upsertGuard upsert).compile strict "ON CONFLICT WHERE" 0 = .ok guard ∧
      resolve guard.body 0 = .ok is ∧ UpsertBinds rows data guard is s := by
  obtain ⟨_, fetch, hrows', h⟩ := insert_upsert_eq_ok hv hu hc h
  cases hrows.symm.trans hrows'
  obtain ⟨data, guard, written, tuples, inserted, columns, target, assigned, ending, hdata, hguard,
    hwritten, htuples, hcolumns, htarget, hassigned, hending, rfl⟩ := compileUpsert_eq_ok h
  rw [List.forall_mem_append] at hquotes
  have hplain : ∀ t ∈ upsertFragments fields upsert rows, Plain t :=
    fun t ht => ⟨hquotes.1 t ht, hmarks t ht⟩
  simp only [upsertFragments, hdata, Option.getD_some, List.forall_mem_cons,
    List.forall_mem_append, List.forall_mem_map] at hplain
  obtain ⟨htable, ⟨⟨⟨⟨hnames, hrowraw⟩, hconflict⟩, hkeys⟩, hdataraw⟩, hreturning⟩ := hplain
  obtain ⟨is, hresolve, hreach, hwhere⟩ := Filter.numbered_reads hquotes.2 hguard hwritten
  have hwithin : ∀ i ∈ is, i ≤ guard.arguments.length := by
    intro i hi
    rw [← hreach]
    exact le_highest_of_mem hi
  have hhead := upsert_head_plain htable (Table.columnText_plain hcolumns hnames)
  obtain ⟨hmiddle, hblank⟩ :=
    upsert_middle_plain (joinable_plain.conflictTarget htarget hconflict)
  have hend : Plain ending := joinable_plain.returning hending hreturning
  -- the rows are read with the last indexes, SET with those before, and the guard last
  have hrange := hhead.append_reads (Clause.commas_reads (Clause.rows_chain htuples hrowraw 0))
  have hset := hrange.append_between hmiddle hblank (by decide)
    (Clause.assignments_reads hassigned hkeys hdataraw _)
  have hreads := (hset.append_led (hwhere _) written.clause_led).append_plain hend
    (returning_led hending)
  obtain ⟨cs, rfl, hlength, hcells, rfl⟩ := Clause.rows_eq_ok htuples
  rw [Clause.assignments, bind_eq_ok] at hassigned
  obtain ⟨cells, hdatacells, hjoined⟩ := hassigned
  cases hjoined
  refine ⟨data, guard, is, hdata, hguard, hresolve, rfl, hwithin, _, cs, _, cells, written, ending,
    _, ?_, rfl, hlength, ?_, ?_, hwritten, hhead.unmarked, hmiddle.unmarked, hend.unmarked,
    hreads.resolved, ?_⟩
  · simp only [String.append_assoc]
  · have hbefore : (guard.arguments ++ Clause.boundValues data.values).length
        = guard.arguments.length + Clause.countBound data.values := List.length_append
    have hplaced := Clause.placed_of_cells (guard.arguments ++ Clause.boundValues data.values) []
      (hbefore ▸ hcells)
    rwa [List.append_nil, hbefore] at hplaced
  · exact Clause.placed_of_cells guard.arguments _ hdatacells
  · rw [hreads.highestIndex, highest_ranges hreach]
    simp only [List.length_append]
    rfl

/-- The fields of an upsert with a guard, and of an insert of two rows with it. -/
def sampleUpsert : List Value :=
  RecordKind.fill .upsert [("column", .text "id"),
    ("data", .map [(.text "n", .raw (.text "t.n + 1")), (.text "note", .text "it's")]),
    ("where", .map [(.text "conditions", .list [.text "t.n < ?", .text "t.id = ?1 OR t.id = ?"]),
      (.text "params", .list [.int 1, .int 2])])]

def sampleInsert : List Value :=
  RecordKind.fill .insert [("table_name", .text "t"),
    ("data", .list [.map [(.text "id", .int 3), (.text "n", .raw (.text "0"))],
      .map [(.text "n", .int 5), (.text "id", .int 4)]]),
    ("on_conflict", .record .upsert sampleUpsert)]

theorem upsert_binds_in_place_sample :
    ∃ s rows data guard is, insert false (.record .insert sampleInsert) = .ok s ∧
      UpsertBinds rows data guard is s ∧ s.arguments.length = 6 := by
  have hcompiled : (insert false (.record .insert sampleInsert)).toOption.map (·.arguments.length)
      = some 6 := by
    decide
  have hrows : Table.ofData (RecordKind.field .insert sampleInsert "data") =
      .ok ⟨[.text "id", .text "n"], [[.int 3, .raw (.text "0")], [.int 4, .int 5]]⟩ := by
    rfl
  have hquotes : ∀ t ∈ upsertFragments sampleInsert sampleUpsert
      ⟨[.text "id", .text "n"], [[.int 3, .raw (.text "0")], [.int 4, .int 5]]⟩
        ++ (upsertGuard sampleUpsert).texts, Balanced t.toList := by
    decide
  have hmarks : ∀ t ∈ upsertFragments sampleInsert sampleUpsert
      ⟨[.text "id", .text "n"], [[.int 3, .raw (.text "0")], [.int 4, .int 5]]⟩,
        marks (lex t.toList) = [] := by
    decide
  cases hs : insert false (.record .insert sampleInsert) with
  | error e =>
    rw [hs] at hcompiled
    cases hcompiled
  | ok s =>
    rw [hs] at hcompiled
    obtain ⟨data, guard, is, _, _, _, hbinds⟩ := upsert_binds_in_place rfl rfl rfl hrows hs hquotes
      fun t ht => scan_eq_nil_iff.2 (hmarks t ht)
    exact ⟨s, _, data, guard, is, rfl, hbinds, Option.some.inj hcompiled⟩

end Querywright.Statement
