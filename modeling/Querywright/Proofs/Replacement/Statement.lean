/-
  Statements before and after the bound values are replaced.

  Whatever plain values a descriptor binds, its statement has the same text, and the values that
  it binds come in the same places; or it is refused with the same fault. So no bound value is
  ever written into a query.
-/
import Querywright.Proofs.Replacement.Rows
import Querywright.Proofs.Replacement.Select
import Querywright.Statement.Form

namespace Querywright.Statement

open Value

variable {g : Value → Value}

/-- The statement with replaced values. -/
def replace (g : Value → Value) (s : Statement) : Statement :=
  { s with arguments := s.arguments.map g }

/-- What a form of statement is compiled from. -/
def Form.place : Form → Place
  | .selectOne => .descriptor .selectOne
  | .selectAll => .descriptor .selectAll
  | .count => .descriptor .selectAll
  | .insert => .descriptor .insert
  | .update => .descriptor .update
  | .delete => .descriptor .delete
  | .createTable => .kept
  | .dropTable => .kept

/-! ## Selects -/

theorem selectOne_replace (hg : KeepsPlain g) (strict : Bool) {v : Value}
    (h : listsParams (.descriptor .selectOne) v = true) :
    selectOne strict (Value.replace g (.descriptor .selectOne) v)
      = (selectOne strict v).map (replace g) := by
  rw [selectOne, selectOne]
  refine bind_commutes (RecordKind.coerce_replace .selectOne v) fun r hr => ?_
  have halike := Select.ofValue_partsAlike hg .selectOne (RecordKind.listsParams_coerce h hr)
  exact bind_commutes ((halike.withLimit (.int 1)).writtenAlike strict 0) fun piece _ => rfl

theorem selectRecord_replace (v : Value) :
    selectRecord (Value.replace g (.descriptor .selectAll) v)
      = (selectRecord v).map (Value.replace g (.descriptor .selectAll)) := by
  rw [selectRecord, selectRecord, isSelect_replace rfl]
  split
  · rfl
  · exact RecordKind.coerce_replace .selectAll v

theorem listsParams_selectRecord {v r : Value} (h : listsParams (.descriptor .selectAll) v = true)
    (hr : selectRecord v = .ok r) : listsParams (.descriptor .selectAll) r = true := by
  rw [selectRecord] at hr
  split at hr
  · cases hr
    exact h
  · exact RecordKind.listsParams_coerce h hr

theorem selectAll_replace (hg : KeepsPlain g) (strict : Bool) {v : Value}
    (h : listsParams (.descriptor .selectAll) v = true) :
    selectAll strict (Value.replace g (.descriptor .selectAll) v)
      = (selectAll strict v).map (replace g) := by
  rw [selectAll, selectAll]
  refine bind_commutes (selectRecord_replace v) fun r hr => ?_
  have halike := Select.ofValue_partsAlike hg .selectAll (listsParams_selectRecord h hr)
  exact bind_commutes (halike.writtenAlike strict 0) fun piece _ => rfl

theorem count_replace (hg : KeepsPlain g) (strict : Bool) {v : Value}
    (h : listsParams (.descriptor .selectAll) v = true) :
    count strict (Value.replace g (.descriptor .selectAll) v)
      = (count strict v).map (replace g) := by
  rw [count, count]
  refine bind_commutes (selectRecord_replace v) fun r hr => ?_
  have halike := Select.ofValue_partsAlike hg .selectAll (listsParams_selectRecord h hr)
  exact bind_commutes (halike.counting.writtenAlike strict 0) fun piece _ => rfl

/-! ## Filters of a change -/

/-- The filter of an update, a delete or an upsert. -/
theorem filter_replace (hg : KeepsPlain g) {v : Value}
    (h : listsParams (.descriptor .conditions) v = true) :
    Filter.WrittenAlike g (Select.readFilter Select.ofValue v)
      (Select.readFilter Select.ofValue (Value.replace g (.descriptor .conditions) v)) :=
  Select.readFilter_writtenAlike hg h fun _ _ hs =>
    (Select.ofValue_partsAlike hg .selectAll hs).writtenAlike

theorem numbered_replace (f : FilterPiece) :
    (f.replace g).numbered = f.numbered.map (FilterPiece.replace g) := by
  obtain ⟨conditions, text, arguments⟩ := f
  cases text with
  | none => rfl
  | some text =>
    refine bind_same fun text _ => ?_
    cases conditions <;> rfl

theorem assignments_replace (hg : KeepsPlain g) (data : Entries) (start : Int) :
    Clause.assignments (data.replace g) start = Clause.assignments data start := by
  rw [Clause.assignments, Clause.assignments, Entries.keys_replace, Entries.values_replace,
    Clause.cells_map hg]

/-! ## Updates and deletes -/

theorem update_replace (hg : KeepsPlain g) (strict : Bool) {v : Value}
    (h : listsParams (.descriptor .update) v = true) :
    update strict (Value.replace g (.descriptor .update) v)
      = (update strict v).map (replace g) := by
  obtain ⟨e, he, he'⟩ | ⟨fields, hfields, hfields', hlists⟩ :=
    RecordKind.coerce_cases (g := g) .update (by decide) h
  · rw [update, update, he, he']
    rfl
  have hdata : RecordKind.update.field (replaceFields g RecordKind.update.places fields) "data"
      = Value.replace g .row (RecordKind.update.field fields "data") :=
    RecordKind.field_replace .update fields "data"
  have hwhere : RecordKind.update.field (replaceFields g RecordKind.update.places fields) "where"
      = Value.replace g (.descriptor .conditions) (RecordKind.update.field fields "where") :=
    RecordKind.field_replace .update fields "where"
  have hfilter := filter_replace hg (RecordKind.listsParams_field hlists "where")
  rw [update, update, hfields, hfields', ok_bind, ok_bind]
  dsimp only
  rw [RecordKind.field_kept .update "table_name" rfl, RecordKind.field_kept .update "on_conflict" rfl,
    RecordKind.field_kept .update "returning" rfl, hdata, hwhere, truth_replace rfl,
    kindName_replace rfl, asMap?_replace]
  refine bind_same fun table _ => ?_
  split
  · rfl
  cases (RecordKind.update.field fields "data").asMap? with
  | none => rfl
  | some data =>
    simp only [Option.map_some]
    split
    · rfl
    refine bind_commutes (hfilter strict "WHERE" 0) fun filter _ => ?_
    refine bind_commutes (numbered_replace filter) fun filter _ => ?_
    rw [assignments_replace hg, FilterPiece.replace]
    dsimp only
    rw [List.length_map]
    refine bind_same fun assigned _ => ?_
    refine bind_same fun ending _ => ?_
    simp only [pure, Except.pure, Except.map, replace, Entries.values_replace,
      Clause.boundValues_map hg, List.map_append]
    rfl

theorem deleteText_replace (strict : Bool) (table : String) (filter : FilterPiece)
    {field field' : String → Value}
    (h : ∀ name ∈ ["returning", "order_by", "limit", "offset"], field' name = field name) :
    deleteText strict table (filter.replace g) field'
      = (deleteText strict table filter field).map (replace g) := by
  rw [deleteText, deleteText, h "returning" (by decide), h "order_by" (by decide),
    h "limit" (by decide), h "offset" (by decide)]
  refine bind_same fun returning _ => ?_
  refine bind_same fun orderBy _ => ?_
  refine bind_same fun limit _ => ?_
  exact bind_same fun offset _ => rfl

/-- The notices of a delete do not depend on the values that it binds either. -/
theorem delete_replace (hg : KeepsPlain g) (strict : Bool) {v : Value}
    (h : listsParams (.descriptor .delete) v = true) :
    delete strict (Value.replace g (.descriptor .delete) v)
      = ((delete strict v).1, (delete strict v).2.map (replace g)) := by
  obtain ⟨e, he, he'⟩ | ⟨fields, hfields, hfields', hlists⟩ :=
    RecordKind.coerce_cases (g := g) .delete (by decide) h
  · rw [delete, delete, he, he']
    rfl
  have hwhere : RecordKind.delete.field (replaceFields g RecordKind.delete.places fields) "where"
      = Value.replace g (.descriptor .conditions) (RecordKind.delete.field fields "where") :=
    RecordKind.field_replace .delete fields "where"
  have hkept : ∀ name ∈ ["returning", "order_by", "limit", "offset"],
      RecordKind.delete.field (replaceFields g RecordKind.delete.places fields) name
        = RecordKind.delete.field fields name := by
    intro name hname
    refine RecordKind.field_kept .delete name ?_ fields
    simp only [List.mem_cons, List.not_mem_nil, or_false] at hname
    rcases hname with rfl | rfl | rfl | rfl <;> rfl
  have hfilter := filter_replace hg (RecordKind.listsParams_field hlists "where") strict "WHERE" 0
  rw [delete, delete, hfields, hfields']
  simp only [ok_bind]
  rw [RecordKind.field_kept .delete "table_name" rfl, hwhere, hfilter]
  cases requireTable "delete" (RecordKind.delete.field fields "table_name") with
  | error e => rfl
  | ok table =>
    cases (Select.readFilter Select.ofValue (RecordKind.delete.field fields "where")).compile strict
      "WHERE" 0 with
    | error e => rfl
    | ok filter => exact congrArg (Prod.mk _) (deleteText_replace strict table filter hkept)

/-! ## Inserts -/

theorem isUpsert_replace (v : Value) : isUpsert (Value.replace g .conflict v) = isUpsert v := by
  rw [replace_inside rfl]
  cases v with
  | record kind fields => cases kind <;> rfl
  | _ => rfl

/-- A conflict keyword is kept. -/
theorem replace_keyword {v : Value} (h : isUpsert v = false) : Value.replace g .conflict v = v := by
  rw [replace_inside rfl]
  cases v with
  | map entries => cases h
  | list items => exact congrArg Value.list (replaceAll_kept items)
  | tuple items => exact congrArg Value.tuple (replaceAll_kept items)
  | builder options => exact congrArg Value.builder (replace_kept options)
  | record kind fields =>
    cases kind with
    | upsert => cases h
    | _ => exact congrArg _ (replaceFields_nil fields)
  | _ => rfl

theorem replace_upsert {v : Value} (h : isUpsert v = true) :
    Value.replace g .conflict v = Value.replace g (.descriptor .upsert) v := by
  rw [replace_inside rfl, replace_inside rfl]
  cases v with
  | map entries =>
    exact congrArg Value.map
      (replaceEntries_congr .conflict (.descriptor .upsert) (fun _ => rfl) entries)
  | record kind fields =>
    cases kind with
    | upsert => rfl
    | _ => cases h
  | _ => cases h

theorem listsParams_upsert {v : Value} (h : isUpsert v = true)
    (hlists : listsParams .conflict v = true) : listsParams (.descriptor .upsert) v = true := by
  have hinside := listsParams_inside rfl hlists
  cases v with
  | map entries =>
    rw [listsParams_eq]
    exact listsParamsEntries_congr .conflict (.descriptor .upsert) (fun _ => rfl) hinside
  | record kind fields =>
    cases kind with
    | upsert =>
      rw [RecordKind.listsParams_record]
      exact hinside
    | _ => cases h
  | _ => cases h

theorem compileUpsert_replace (hg : KeepsPlain g) (strict : Bool) (table : String) (rows : Table)
    {fields : List Value} (returning : Value) (fetch : FetchMode)
    (h : listsParamsFields RecordKind.upsert.places fields = true) :
    compileUpsert strict table (rows.replace g) (replaceFields g RecordKind.upsert.places fields)
        returning fetch
      = (compileUpsert strict table rows fields returning fetch).map (replace g) := by
  have hdata : RecordKind.upsert.field (replaceFields g RecordKind.upsert.places fields) "data"
      = Value.replace g .row (RecordKind.upsert.field fields "data") :=
    RecordKind.field_replace .upsert fields "data"
  have hwhere : RecordKind.upsert.field (replaceFields g RecordKind.upsert.places fields) "where"
      = Value.replace g (.descriptor .conditions) (RecordKind.upsert.field fields "where") :=
    RecordKind.field_replace .upsert fields "where"
  have hguard := filter_replace hg (RecordKind.listsParams_field h "where")
  rw [compileUpsert, compileUpsert]
  dsimp only
  rw [RecordKind.field_kept .upsert "column" rfl, hdata, hwhere, truth_replace rfl,
    kindName_replace rfl, asMap?_replace]
  split
  · rfl
  cases (RecordKind.upsert.field fields "data").asMap? with
  | none => rfl
  | some data =>
    simp only [Option.map_some]
    refine bind_commutes (hguard strict "ON CONFLICT WHERE" 0) fun guard _ => ?_
    refine bind_commutes (numbered_replace guard) fun guard _ => ?_
    rw [assignments_replace hg, FilterPiece.replace, Entries.values_replace,
      Clause.countBound_map hg, Table.replace]
    dsimp only
    rw [List.length_map]
    refine bind_commutes (Clause.rows_map hg rows.values _) fun written _ => ?_
    obtain ⟨tuples, inserted⟩ := written
    refine bind_same fun columns _ => ?_
    refine bind_same fun target _ => ?_
    refine bind_same fun assigned _ => ?_
    refine bind_same fun ending _ => ?_
    simp only [pure, Except.pure, Except.map, replace, Prod.map, id_eq, Clause.boundValues_map hg,
      List.map_append]
    rfl

theorem compileInsert_replace (hg : KeepsPlain g) (table : String) (rows : Table)
    (conflict returning : Value) (fetch : FetchMode) :
    compileInsert table (rows.replace g) conflict returning fetch
      = (compileInsert table rows conflict returning fetch).map (replace g) := by
  rw [compileInsert, compileInsert]
  refine bind_commutes (Clause.rows_map hg rows.values 0) fun written _ => ?_
  refine bind_same fun columns _ => ?_
  exact bind_same fun ending _ => rfl

theorem insert_replace (hg : KeepsPlain g) (strict : Bool) {v : Value}
    (h : listsParams (.descriptor .insert) v = true) :
    insert strict (Value.replace g (.descriptor .insert) v)
      = (insert strict v).map (replace g) := by
  obtain ⟨e, he, he'⟩ | ⟨fields, hfields, hfields', hlists⟩ :=
    RecordKind.coerce_cases (g := g) .insert (by decide) h
  · rw [insert, insert, he, he']
    rfl
  have hdata : RecordKind.insert.field (replaceFields g RecordKind.insert.places fields) "data"
      = Value.replace g .rows (RecordKind.insert.field fields "data") :=
    RecordKind.field_replace .insert fields "data"
  have hconflict :
      RecordKind.insert.field (replaceFields g RecordKind.insert.places fields) "on_conflict"
        = Value.replace g .conflict (RecordKind.insert.field fields "on_conflict") :=
    RecordKind.field_replace .insert fields "on_conflict"
  have hupsert : listsParams .conflict (RecordKind.insert.field fields "on_conflict") = true :=
    RecordKind.listsParams_field hlists "on_conflict"
  have hisMap : (Value.replace g .rows (RecordKind.insert.field fields "data")).asMap?.isSome
      = (RecordKind.insert.field fields "data").asMap?.isSome := by
    rw [replace_inside rfl]
    cases RecordKind.insert.field fields "data" <;> rfl
  rw [insert, insert, hfields, hfields', ok_bind, ok_bind]
  dsimp only
  rw [RecordKind.field_kept .insert "table_name" rfl, RecordKind.field_kept .insert "returning" rfl,
    hdata, hconflict, hisMap, isUpsert_replace]
  refine bind_same fun table _ => ?_
  refine bind_commutes (Table.ofData_replace _) fun rows _ => ?_
  split
  · rename_i hu
    rw [replace_upsert hu]
    obtain ⟨e, he, he'⟩ | ⟨upsert, hfound, hfound', hlisted⟩ :=
      RecordKind.coerce_cases (g := g) .upsert (by decide) (listsParams_upsert hu hupsert)
    · rw [he, he']
      rfl
    · rw [hfound, hfound']
      exact compileUpsert_replace hg strict table rows _ _ hlisted
  · rename_i hu
    rw [replace_keyword (Bool.eq_false_iff.2 hu)]
    exact compileInsert_replace hg table rows _ _ _

/-! ## All forms -/

/-- The definition of a table binds nothing. -/
theorem createTable_replace (v : Value) : createTable v = (createTable v).map (replace g) := by
  rw [createTable]
  refine bind_same fun r _ => ?_
  split
  · dsimp only
    refine bind_same fun table _ => ?_
    split
    · rfl
    refine bind_same fun blank _ => ?_
    split
    · rfl
    exact bind_same fun body _ => rfl
  · rfl

theorem dropTable_replace (v : Value) : dropTable v = (dropTable v).map (replace g) := by
  rw [dropTable]
  refine bind_same fun r _ => ?_
  split
  · exact bind_same fun table _ => rfl
  · rfl

/-- A descriptor with other plain values is compiled to the same text and the same fetch mode,
with those values in the same places, or is refused with the same fault. -/
theorem compile_replace (strict : Bool) (form : Form) {f : Value → Value}
    (hf : ∀ v, v.isPlain = true → (f v).isPlain = true) {v : Value}
    (h : listsParams form.place v = true) :
    compile strict form (Value.replace (onPlain f) form.place v)
      = ((compile strict form v).1, (compile strict form v).2.map (replace (onPlain f))) := by
  have hg := keepsPlain_onPlain hf
  cases form with
  | selectOne => exact congrArg (Prod.mk []) (selectOne_replace hg strict h)
  | selectAll => exact congrArg (Prod.mk []) (selectAll_replace hg strict h)
  | count => exact congrArg (Prod.mk []) (count_replace hg strict h)
  | insert => exact congrArg (Prod.mk []) (insert_replace hg strict h)
  | update => exact congrArg (Prod.mk []) (update_replace hg strict h)
  | delete => exact delete_replace hg strict h
  | createTable =>
    show ([], createTable (Value.replace _ .kept v)) = ([], (createTable v).map _)
    rw [replace_kept, ← createTable_replace]
  | dropTable =>
    show ([], dropTable (Value.replace _ .kept v)) = ([], (dropTable v).map _)
    rw [replace_kept, ← dropTable_replace]

/-- An insert of two rows with an upsert whose guard has a subquery among its values. -/
def guardedInsert : Value :=
  .map [(.text "table_name", .text "t"),
    (.text "data", .list [.map [(.text "id", .int 1), (.text "n", .raw (.text "now()"))],
      .map [(.text "n", .int 2), (.text "id", .int 3)]]),
    (.text "onConflict", .map [(.text "column", .text "id"),
      (.text "data", .map [(.text "n", .int 4)]),
      (.text "where", .map [(.text "conditions", .list [.text "t.n < ?", .text "t.id IN ?"]),
        (.text "params", .list [.int 5, .record .selectAll (RecordKind.fill .selectAll
          [("table_name", .text "u"), ("where", .map [(.text "conditions", .text "z = ?"),
            (.text "params", .list [.int 6])])])])])])]

theorem compile_replace_hostile :
    listsParams (Form.place .insert) guardedInsert = true ∧
    compile false .insert (Value.replace (onPlain fun _ => .text "'; DROP TABLE t; --?")
        (Form.place .insert) guardedInsert)
      = ([], .ok ⟨.text ("INSERT INTO t (id, n) VALUES (?4, now()), (?5, ?6) ON CONFLICT (id) DO UPDATE"
          ++ " SET n = ?3 WHERE t.n < ?1 AND t.id IN (SELECT * FROM u WHERE z = ?2)"),
        List.replicate 6 (.text "'; DROP TABLE t; --?"), .all⟩) := by
  have hlists : listsParams (Form.place .insert) guardedInsert = true := by decide
  refine ⟨hlists, ?_⟩
  rw [compile_replace false .insert (fun _ _ => rfl) hlists]
  rfl

end Querywright.Statement
