/-
  An update binds every value to its own place. The values of WHERE come first and those of SET
  after them, while SET comes first in the text: `update_binds_in_place`.
-/
import Querywright.Proofs.Clause.Cells
import Querywright.Proofs.Select.Written
import Querywright.Statement.Change

namespace Querywright.Statement

open Placeholder

/-- The texts of an update, its filter apart. -/
def updateFragments (fields : List Value) : List String :=
  let field := RecordKind.field .update fields
  let data := (field "data").asMap?.getD []
  (field "table_name").display ::
    (partText (field "on_conflict") (field "on_conflict").keywordText
      ++ data.keys.map Value.display ++ Clause.rawTexts data.values
      ++ entryTexts (Clause.columns (field "returning")))

/-- The filter of an update. -/
def updateFilter (fields : List Value) : Filter :=
  Select.readFilter Select.ofValue (RecordKind.field .update fields "where")

/-- What an update is made of. -/
theorem update_eq_ok {strict : Bool} {v : Value} {kind : RecordKind} {fields : List Value}
    {s : Statement} (hv : RecordKind.coerce .update v = .ok (.record kind fields))
    (h : update strict v = .ok s) :
    ∃ data filter written assigned ending,
      (RecordKind.field .update fields "data").asMap? = some data ∧
      (updateFilter fields).compile strict "WHERE" 0 = .ok filter ∧ filter.numbered = .ok written ∧
      Clause.assignments data filter.arguments.length = .ok assigned ∧
      Clause.returning (RecordKind.field .update fields "returning") = .ok ending ∧
      s = ⟨.text ("UPDATE " ++ Clause.conflictKeyword (RecordKind.field .update fields "on_conflict")
          ++ (RecordKind.field .update fields "table_name").display ++ " SET " ++ assigned
          ++ written.clause "WHERE" ++ ending),
        filter.arguments ++ Clause.boundValues data.values, .all⟩ := by
  rw [update, hv, ok_bind] at h
  dsimp only at h
  simp only [bind_eq_ok] at h
  obtain ⟨table, htable, h⟩ := h
  split at h
  · cases h
  · split at h
    · cases h
    · rename_i data hdata
      split at h
      · cases h
      · simp only [bind_eq_ok, pure_eq_ok] at h
        obtain ⟨filter, hfilter, written, hwritten, assigned, hassigned, ending, hending, rfl⟩ := h
        obtain ⟨harguments, -⟩ := FilterPiece.numbered_eq_ok hwritten
        rw [harguments] at hassigned ⊢
        rw [requireTable_eq_ok htable]
        exact ⟨data, filter, written, assigned, ending, hdata, hfilter, hwritten, hassigned,
          hending, rfl⟩

/-- An update of the data under the written filter whose conditions alone take the indexes `is`.
Every value is bound in its own place: the placeholders of SET take the indexes after those of
WHERE, and WHERE keeps its own. -/
structure UpdateBinds (data : Entries) (filter : FilterPiece) (is : List Int) (s : Statement) :
    Prop where
  arguments : s.arguments = filter.arguments ++ Clause.boundValues data.values
  within : ∀ i ∈ is, i ≤ filter.arguments.length
  text : ∃ head cells written ending sql,
    s.query = .text sql ∧
    sql = head ++ Clause.assignmentsOf data.keys cells ++ written.clause "WHERE" ++ ending ∧
    Clause.Placed filter.arguments.length data.values cells s.arguments ∧
    filter.numbered = .ok written ∧ scan head = .ok [] ∧ scan ending = .ok [] ∧
    resolve sql 0 =
      .ok (Clause.indexes filter.arguments.length (Clause.countBound data.values) ++ is) ∧
    highestIndex sql 0 = .ok s.arguments.length

theorem update_binds_in_place {strict : Bool} {v : Value} {kind : RecordKind} {fields : List Value}
    {s : Statement} (hv : RecordKind.coerce .update v = .ok (.record kind fields))
    (h : update strict v = .ok s)
    (hquotes : ∀ t ∈ updateFragments fields ++ (updateFilter fields).texts, Balanced t.toList)
    (hmarks : ∀ t ∈ updateFragments fields, scan t = .ok []) :
    ∃ data filter is, (RecordKind.field .update fields "data").asMap? = some data ∧
      (updateFilter fields).compile strict "WHERE" 0 = .ok filter ∧
      resolve filter.body 0 = .ok is ∧ UpdateBinds data filter is s := by
  obtain ⟨data, filter, written, assigned, ending, hdata, hfilter, hwritten, hassigned, hending, rfl⟩ :=
    update_eq_ok hv h
  rw [List.forall_mem_append] at hquotes
  have hplain : ∀ t ∈ updateFragments fields, Plain t := fun t ht => ⟨hquotes.1 t ht, hmarks t ht⟩
  simp only [updateFragments, hdata, Option.getD_some, List.forall_mem_cons,
    List.forall_mem_append, List.forall_mem_map] at hplain
  obtain ⟨htable, ⟨⟨hconflict, hcolumns⟩, hraw⟩, hreturning⟩ := hplain
  obtain ⟨is, hresolve, hreach, hwhere⟩ := Filter.numbered_reads hquotes.2 hfilter hwritten
  have hwithin : ∀ i ∈ is, i ≤ filter.arguments.length := by
    intro i hi
    rw [← hreach]
    exact le_highest_of_mem hi
  have hcells := hassigned
  rw [Clause.assignments, bind_eq_ok] at hcells
  obtain ⟨cells, hcells, hjoined⟩ := hcells
  cases hjoined
  have hupdate : Plain "UPDATE " := plain_of_not_mem (by decide) (by decide)
  have hset : Plain " SET " := plain_of_not_mem (by decide) (by decide)
  have hhead : Plain ("UPDATE " ++ Clause.conflictKeyword (RecordKind.field .update fields "on_conflict")
      ++ (RecordKind.field .update fields "table_name").display ++ " SET ") :=
    ((hupdate.append (joinable_plain.conflictKeyword hconflict)).append htable).append hset
  have hend : Plain ending := joinable_plain.returning hending hreturning
  -- SET is read with its own indexes, and then WHERE with those that are written
  have hassign := hhead.append_reads (Clause.assignments_reads hassigned hcolumns hraw 0)
  have hreads := (hassign.append_led (hwhere _) written.clause_led).append_plain hend
    (returning_led hending)
  refine ⟨data, filter, is, hdata, hfilter, hresolve, rfl, hwithin, _, cells, written, ending, _, rfl,
    rfl, ?_, hwritten, hhead.unmarked, hend.unmarked, hreads.resolved, ?_⟩
  · have hplaced := Clause.placed_of_cells filter.arguments [] hcells
    rwa [List.append_nil] at hplaced
  · have hlast := Clause.highest_indexes (Int.natCast_nonneg filter.arguments.length)
      (Clause.countBound data.values)
    rw [hreads.highestIndex, highest_append_max, hreach, Int.max_comm, hlast,
      List.length_append, Int.natCast_add]
    rfl

/-- The fields of an update of two columns with a raw one between them. -/
def sampleUpdate : List Value :=
  RecordKind.fill .update [("table_name", .text "t"),
    ("data", .map [(.text "a", .int 3), (.text "b", .raw (.text "now()")), (.text "c", .int 4)]),
    ("where", .map [(.text "conditions", .list [.text "x = ?", .text "y = ?1 OR y = ?"]),
      (.text "params", .list [.int 1, .int 2])])]

theorem update_binds_in_place_sample :
    ∃ s data filter is, update false (.record .update sampleUpdate) = .ok s ∧
      UpdateBinds data filter is s ∧ s.arguments.length = 4 := by
  have hquotes : ∀ t ∈ updateFragments sampleUpdate ++ (updateFilter sampleUpdate).texts,
      Balanced t.toList := by
    decide
  have hmarks : ∀ t ∈ updateFragments sampleUpdate, marks (lex t.toList) = [] := by
    decide
  have hcompiled : (update false (.record .update sampleUpdate)).toOption.map (·.arguments.length)
      = some 4 := by
    decide
  cases hs : update false (.record .update sampleUpdate) with
  | error e =>
    rw [hs] at hcompiled
    cases hcompiled
  | ok s =>
    rw [hs] at hcompiled
    obtain ⟨data, filter, is, _, _, _, hbinds⟩ := update_binds_in_place rfl hs hquotes
      fun t ht => scan_eq_nil_iff.2 (hmarks t ht)
    exact ⟨s, data, filter, is, rfl, hbinds, Option.some.inj hcompiled⟩

end Querywright.Statement
