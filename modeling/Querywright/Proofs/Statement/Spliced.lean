/-
  Raw SQL among the values of a statement. In the rows of an insert and in the data of an update
  or an upsert it is written into the text. Among the values of conditions it is bound like any
  other value.

  * `conditionValues`, `assignedData` and `listedRows` are the values that the statement of a
    descriptor is given.
  * `Splices`: the statement binds the first and what is not raw of the others, and shows the
    others cell by cell.
  * `raw_bound_iff`: every statement of a descriptor is so; raw SQL is bound exactly when it is
    among the values of the conditions.
-/
import Querywright.Proofs.Select.Flattening
import Querywright.Proofs.Statement.Covered

namespace Querywright.Statement

/-! ## The values of a descriptor -/

/-- The values of a select record, if it can be read. -/
def recordValues (record : Except Fault Value) : List Value :=
  match record with
  | .ok r => (Select.ofValue r).flatten
  | .error _ => []

/-- The values of the conditions of a statement, at every depth and in declared order. -/
def conditionValues (form : Form) (v : Value) : List Value :=
  match form with
  | .selectOne => recordValues (RecordKind.coerce .selectOne v)
  | .selectAll | .count => recordValues (selectRecord v)
  | .insert =>
    if isUpsert (RecordKind.field .insert (fieldsOf .insert v) "on_conflict") then
      (upsertGuard (upsertOf (fieldsOf .insert v))).flatten
    else []
  | .update => (updateFilter (fieldsOf .update v)).flatten
  | .delete => (deleteFilter (fieldsOf .delete v)).flatten
  | .createTable | .dropTable => []

/-- The data that a statement assigns. -/
def assignedData (form : Form) (v : Value) : Entries :=
  match form with
  | .insert =>
    if isUpsert (RecordKind.field .insert (fieldsOf .insert v) "on_conflict") then
      (RecordKind.field .upsert (upsertOf (fieldsOf .insert v)) "data").asMap?.getD []
    else []
  | .update => (RecordKind.field .update (fieldsOf .update v) "data").asMap?.getD []
  | _ => []

/-- The rows that a statement inserts, each in the order of the columns. -/
def listedRows (form : Form) (v : Value) : List (List Value) :=
  match form with
  | .insert => (tableOf (fieldsOf .insert v)).values
  | _ => []

/-! ## Values that are shown in the text -/

/-- The text assigns the data: raw SQL as it is, and a placeholder for every other value. -/
def Assigns (sql : String) (start : Nat) (data : Entries) (arguments : List Value) : Prop :=
  ∃ head cells tail, sql = head ++ Clause.assignmentsOf data.keys cells ++ tail ∧
    Clause.Placed start data.values cells arguments

/-- The text lists the rows in the same way. -/
def Lists (sql : String) (start : Nat) (rows : List (List Value)) (arguments : List Value) : Prop :=
  ∃ (head : String) (tuples : List (List String)) (tail : String),
    sql = head ++ Value.commas (tuples.map Clause.tupleOf) ++ tail ∧
    tuples.map List.length = rows.map List.length ∧
    Clause.Placed start rows.flatten tuples.flatten arguments

/-- A statement that binds the values of conditions and what is not raw among the data and the
rows, and whose text shows the data and the rows. -/
structure Splices (s : Statement) (conditions : List Value) (data : Entries)
    (rows : List (List Value)) : Prop where
  arguments : s.arguments
    = conditions ++ Clause.boundValues data.values ++ Clause.boundValues rows.flatten
  text : ∃ sql, s.query = .text sql ∧ Assigns sql conditions.length data s.arguments ∧
    Lists sql (conditions.length + Clause.countBound data.values) rows s.arguments

theorem Assigns.nothing (sql : String) (start : Nat) (arguments : List Value) :
    Assigns sql start [] arguments :=
  ⟨sql, [], "", by simp [Clause.assignmentsOf, Value.commas], ⟨rfl, nofun, nofun⟩⟩

theorem Lists.nothing (sql : String) (start : Nat) (arguments : List Value) :
    Lists sql start [] arguments :=
  ⟨sql, [], "", by simp [Value.commas], rfl, ⟨rfl, nofun, nofun⟩⟩

/-- A statement without data and rows binds the values of its conditions. -/
theorem Splices.conditions (sql : String) (values : List Value) (mode : FetchMode) :
    Splices ⟨.text sql, values, mode⟩ values [] [] where
  arguments := by simp [Clause.boundValues, Entries.values]
  text := ⟨sql, rfl, .nothing _ _ _, .nothing _ _ _⟩

/-- What is bound of data and rows is not raw. -/
theorem Splices.mem_arguments {s : Statement} {conditions : List Value} {data : Entries}
    {rows : List (List Value)} (h : Splices s conditions data rows) {a : Value}
    (ha : a.isRaw = true) :
    a ∈ s.arguments ↔ a ∈ conditions := by
  have hcells : ∀ values, a ∉ Clause.boundValues values := by
    intro values hmem
    simp [Clause.boundValues, ha] at hmem
  rw [h.arguments, List.mem_append, List.mem_append, or_iff_left (hcells _), or_iff_left (hcells _)]

/-! ## Every form of statement -/

/-- Assignments that are written show the data. -/
theorem assigns_of_written {data : Entries} {before : List Value} {assigned : String}
    (h : Clause.assignments data before.length = .ok assigned) (after : List Value)
    (head tail : String) :
    Assigns (head ++ assigned ++ tail) before.length data
      (before ++ Clause.boundValues data.values ++ after) := by
  rw [Clause.assignments, bind_eq_ok] at h
  obtain ⟨cells, hcells, hjoined⟩ := h
  cases hjoined
  exact ⟨head, cells, tail, rfl, Clause.placed_of_cells before after hcells⟩

/-- Rows that are written are listed. -/
theorem lists_of_written {rows : List (List Value)} (before : List Value) {inserted : List Value}
    {tuples : List String} (h : Clause.rows rows before.length = .ok (tuples, inserted))
    (head tail : String) :
    inserted = Clause.boundValues rows.flatten ∧
      Lists (head ++ Value.commas tuples ++ tail) before.length rows (before ++ inserted) := by
  obtain ⟨cs, rfl, hlength, hcells, rfl⟩ := Clause.rows_eq_ok h
  have hplaced := Clause.placed_of_cells before [] hcells
  rw [List.append_nil] at hplaced
  exact ⟨rfl, head, cs, tail, rfl, hlength, hplaced⟩

theorem filter_flatten {strict : Bool} {clause : String} {given : Value} {f : FilterPiece}
    (h : (Select.readFilter Select.ofValue given).compile strict clause 0 = .ok f) :
    f.arguments = (Select.readFilter Select.ofValue given).flatten :=
  Filter.compile_flatten strict _ (Select.readFilter_faithful Select.faithful_ofValue given) h

/-- A statement of a select that is read, edited and written, where the edit keeps its values. -/
theorem select_splices {strict : Bool} {record : Except Fault Value} {mode : FetchMode}
    (edit : Select → Select)
    (hedit : ∀ select, (edit select).flatten = select.flatten ∧
      ((edit select).Faithful ↔ select.Faithful)) {s : Statement}
    (h : (do
      let piece ← (edit (Select.ofValue (← record))).compile strict 0
      return ⟨.text piece.sql, piece.arguments, mode⟩) = Except.ok s) :
    Splices s (recordValues record) [] [] := by
  simp only [bind_eq_ok, pure_eq_ok] at h
  obtain ⟨r, rfl, piece, hpiece, rfl⟩ := h
  obtain ⟨hflatten, hfaithful⟩ := hedit (Select.ofValue r)
  have harguments :=
    Select.compile_flatten strict _ (hfaithful.2 (Select.faithful_ofValue r)) hpiece
  rw [recordValues, ← hflatten, ← harguments]
  exact .conditions _ _ _

theorem delete_splices {strict : Bool} {v : Value} {s : Statement}
    (h : (delete strict v).2 = .ok s) : Splices s (conditionValues .delete v) [] [] := by
  obtain ⟨filter, _, _, _, _, hfilter, -, -, -, -, rfl⟩ := delete_eq_ok h
  rw [conditionValues, deleteFilter, ← filter_flatten hfilter]
  exact .conditions _ _ _

theorem update_splices {strict : Bool} {v : Value} {s : Statement} (h : update strict v = .ok s) :
    Splices s (conditionValues .update v) (assignedData .update v) [] := by
  obtain ⟨given, hv⟩ := coerce_fieldsOf h
  obtain ⟨data, filter, written, assigned, ending, hdata, hfilter, -, hassigned, -, rfl⟩ :=
    update_eq_ok hv h
  rw [conditionValues, updateFilter, ← filter_flatten hfilter, assignedData, hdata]
  have hshown := assigns_of_written hassigned []
    ("UPDATE "
      ++ Clause.conflictKeyword (RecordKind.field .update (fieldsOf .update v) "on_conflict")
      ++ (RecordKind.field .update (fieldsOf .update v) "table_name").display ++ " SET ")
    (written.clause "WHERE" ++ ending)
  rw [List.append_nil, ← String.append_assoc] at hshown
  exact ⟨(List.append_nil _).symm, _, rfl, hshown, .nothing _ _ _⟩

theorem insert_splices {strict : Bool} {v : Value} {s : Statement} (h : insert strict v = .ok s) :
    Splices s (conditionValues .insert v) (assignedData .insert v) (listedRows .insert v) := by
  obtain ⟨given, hv⟩ := coerce_fieldsOf h
  cases hu : isUpsert (RecordKind.field .insert (fieldsOf .insert v) "on_conflict") with
  | false =>
    obtain ⟨rows, tuples, inserted, columns, ending, fetch, hrows, htuples, -, -, rfl⟩ :=
      insert_plain_eq_ok hv hu h
    rw [conditionValues, assignedData, listedRows, hu, tableOf_eq hrows]
    have hlisted := lists_of_written [] htuples
    exact ⟨(hlisted "" "").1, _, rfl, .nothing _ _ _, (hlisted _ _).2⟩
  | true =>
    obtain ⟨kind, hc⟩ := coerce_upsert hv hu h
    obtain ⟨rows, fetch, hrows, h⟩ := insert_upsert_eq_ok hv hu hc h
    obtain ⟨data, guard, written, tuples, inserted, columns, target, assigned, ending, hdata,
      hguard, -, htuples, -, -, hassigned, -, rfl⟩ := compileUpsert_eq_ok h
    rw [conditionValues, assignedData, listedRows, hu, if_pos rfl, if_pos rfl, hdata,
      tableOf_eq hrows, upsertGuard, ← filter_flatten hguard]
    have hbefore : (guard.arguments ++ Clause.boundValues data.values).length
        = guard.arguments.length + Clause.countBound data.values := List.length_append
    rw [← hbefore] at htuples
    have hlisted := lists_of_written _ htuples
    let head := "INSERT INTO "
      ++ (RecordKind.field .insert (fieldsOf .insert v) "table_name").display
      ++ " (" ++ columns ++ ") VALUES "
    let middle := " ON CONFLICT " ++ target ++ " DO UPDATE SET "
    refine ⟨?_, _, rfl, ?_, ?_⟩
    · rw [(hlisted "" "").1]
      rfl
    · have hshown := assigns_of_written hassigned inserted
        (head ++ Value.commas tuples ++ middle) (written.clause "WHERE" ++ ending)
      simp only [head, middle, ← String.append_assoc] at hshown
      exact hshown
    · have hshown := (hlisted head (middle ++ assigned ++ written.clause "WHERE" ++ ending)).2
      simp only [head, middle, ← String.append_assoc] at hshown
      rw [hbefore] at hshown
      exact hshown

/-- The statement of a table's definition or removal binds nothing. -/
theorem definition_splices {v : Value} {s : Statement}
    (h : createTable v = .ok s ∨ dropTable v = .ok s) : Splices s [] [] [] := by
  have hplain : ∃ sql, s = { query := .text sql } := by
    rcases h with h | h
    · obtain ⟨given, hv⟩ := coerce_fieldsOf h
      rw [createTable, hv, ok_bind] at h
      simp only [bind_eq_ok] at h
      obtain ⟨table, -, h⟩ := h
      split at h
      · cases h
      · simp only [bind_eq_ok] at h
        obtain ⟨blank, -, h⟩ := h
        split at h
        · cases h
        · simp only [bind_eq_ok, pure_eq_ok] at h
          obtain ⟨body, -, rfl⟩ := h
          exact ⟨_, rfl⟩
    · obtain ⟨given, hv⟩ := coerce_fieldsOf h
      rw [dropTable, hv, ok_bind] at h
      simp only [bind_eq_ok, pure_eq_ok] at h
      obtain ⟨table, -, rfl⟩ := h
      exact ⟨_, rfl⟩
  obtain ⟨sql, rfl⟩ := hplain
  exact .conditions sql [] .none

/-- The arguments of a statement are the values of its conditions and what is not raw of the data
and rows, which the text shows with the raw SQL in its places. So raw SQL is among the arguments
exactly when it is among the values of the conditions. -/
theorem raw_bound_iff {strict : Bool} {form : Form} {v : Value} {s : Statement}
    (h : (compile strict form v).2 = .ok s) :
    Splices s (conditionValues form v) (assignedData form v) (listedRows form v) ∧
      ∀ content, .raw content ∈ s.arguments ↔ .raw content ∈ conditionValues form v := by
  have hsplices : Splices s (conditionValues form v) (assignedData form v) (listedRows form v) := by
    cases form with
    | selectOne =>
      exact select_splices (Select.withLimit (.int 1))
        (fun select => Select.flatten_withLimit select (.int 1)) h
    | selectAll => exact select_splices id (fun select => ⟨rfl, Iff.rfl⟩) h
    | count => exact select_splices Select.counting Select.flatten_counting h
    | insert => exact insert_splices h
    | update => exact update_splices h
    | delete => exact delete_splices h
    | createTable => exact definition_splices (.inl h)
    | dropTable => exact definition_splices (.inr h)
  exact ⟨hsplices, fun content => hsplices.mem_arguments rfl⟩

/-- An upsert with raw SQL in its row, in its data and in its guard. -/
def rawUpsert : Value :=
  .record .insert (RecordKind.fill .insert [("table_name", .text "t"),
    ("data", .map [(.text "id", .int 3), (.text "seen", .raw (.text "now()"))]),
    ("on_conflict", .record .upsert (RecordKind.fill .upsert [("column", .text "id"),
      ("data", .map [(.text "n", .raw (.text "t.n + 1"))]),
      ("where", .map [(.text "conditions", .text "t.n < ?"),
        (.text "params", .list [.raw (.text "most()")])])]))])

theorem raw_bound_iff_upsert :
    ∃ s, (compile false .insert rawUpsert).2 = .ok s ∧
      Splices s [.raw (.text "most()")] [(.text "n", .raw (.text "t.n + 1"))]
        [[.int 3, .raw (.text "now()")]] ∧
      .raw (.text "most()") ∈ s.arguments ∧ .raw (.text "now()") ∉ s.arguments := by
  have hcompiled : (compile false .insert rawUpsert).2.toOption.isSome = true := by decide
  have hconditions : conditionValues .insert rawUpsert = [.raw (.text "most()")] := rfl
  have hdata : assignedData .insert rawUpsert = [(.text "n", .raw (.text "t.n + 1"))] := rfl
  have hrows : listedRows .insert rawUpsert = [[.int 3, .raw (.text "now()")]] := rfl
  cases hs : (compile false .insert rawUpsert).2 with
  | error e =>
    rw [hs] at hcompiled
    cases hcompiled
  | ok s =>
    obtain ⟨hsplices, hbound⟩ := raw_bound_iff hs
    rw [hconditions, hdata, hrows] at hsplices
    rw [hconditions] at hbound
    refine ⟨s, rfl, hsplices, (hbound _).2 List.mem_cons_self, fun hmem => ?_⟩
    exact absurd (List.mem_singleton.1 ((hbound _).1 hmem)) (by simp)

/-- The raw value of a condition is bound, and its placeholder stays. -/
theorem raw_condition_is_bound :
    (compile false .selectAll
      (plainSelect "t" "a = ?" (.raw (.text "CURRENT_TIMESTAMP")))).2.toOption.map
        (fun s => (s.query.asText?, s.arguments.map Value.isRaw))
      = some (some "SELECT * FROM t WHERE a = ?", [true]) := by
  decide

end Querywright.Statement
