/-
  Every placeholder of a compiled statement names one of its arguments.

  * `Texts.Sound`: no text leaves a literal open, only conditions hold placeholders, and none of
    those is numbered zero.
  * `Covered`: the indexes that the placeholders of a statement take, each of which names an
    argument. Statements of a select (`select_covered`), inserts (`insert_covered`,
    `upsert_covered`), updates (`update_covered`) and deletes (`delete_covered`) of sound texts are
    so. For an update and an upsert the indexes are given range by range.
-/
import Querywright.Proofs.Placeholder.NonZero
import Querywright.Proofs.Replacement.Descriptor
import Querywright.Proofs.Select.Numbering
import Querywright.Proofs.Statement.Insert
import Querywright.Proofs.Statement.Update
import Querywright.Proofs.Statement.Upsert
import Querywright.Statement.Form

namespace Querywright

open Placeholder

/-! ## The indexes of conditions -/

/-- Conditions that leave no literal open and hold no placeholder numbered zero. -/
def IsCondition (t : String) : Prop := Balanced t.toList ∧ NonZero t

theorem cumulative_named : Cumulative IsCondition fun p is as =>
    0 ≤ p → ∀ i ∈ is, 1 ≤ i ∧ i ≤ p + as.length where
  nil p _ i hi := by cases hi
  value p v hp i hi := by
    rw [List.mem_singleton.1 hi, List.length_singleton]
    omega
  joined {p texts is as} htexts hresolve hreach hp i hi := by
    have hand : Plain " AND " := plain_of_not_mem (by decide) (by decide)
    obtain ⟨ns, hns, -⟩ := resolve_eq_ok.1 hresolve
    have hzero : NonZero (ConditionSet.joined texts) :=
      nonZero_intercalate hand (c := ' ') rfl (by decide) (fun t ht => (htexts t ht).1)
        (fun t ht => (htexts t ht).2) hns
    exact ⟨one_le_resolve hp hzero hresolve i hi, hreach ▸ le_highest_of_mem hi⟩
  append {p is js as bs} hfirst hmore hp i hi := by
    rw [List.length_append, Int.natCast_add]
    rcases List.mem_append.1 hi with hi | hi
    · have := hfirst hp i hi
      omega
    · have := hmore (by omega) i hi
      omega

theorem Select.Binds.named {select : Select} {is : List Int} {as : List Value}
    (ht : ∀ t ∈ select.conditionTexts, IsCondition t) (h : select.Binds 0 is as) :
    ∀ i ∈ is, 1 ≤ i ∧ i ≤ as.length := by
  have hnamed := h.cumulative cumulative_named ht (Int.le_refl 0)
  rwa [Int.zero_add] at hnamed

theorem Filter.Binds.named {filter : Filter} {is : List Int} {as : List Value}
    (ht : ∀ t ∈ filter.conditionTexts, IsCondition t) (h : filter.Binds 0 is as) :
    ∀ i ∈ is, 1 ≤ i ∧ i ≤ as.length := by
  have hnamed := h.cumulative cumulative_named ht (Int.le_refl 0)
  rwa [Int.zero_add] at hnamed

/-- The placeholders of the conditions alone take the indexes that the filter binds. -/
theorem Filter.body_binds {strict : Bool} {clause : String} {filter : Filter} {f : FilterPiece}
    (hfrag : ∀ t ∈ filter.fragments, Plain t)
    (hcond : ∀ t ∈ filter.conditionTexts, Balanced t.toList)
    (h : filter.compile strict clause 0 = .ok f) {is : List Int}
    (hbody : resolve f.body 0 = .ok is) : filter.Binds 0 is f.arguments := by
  have hwhere : Plain "WHERE" := plain_of_not_mem (by decide) (by decide)
  obtain ⟨js, hbinds, hclause⟩ := Filter.reads strict filter hfrag hcond h
  have hjs := hclause "WHERE" hwhere
  have his : Reads 0 (f.clause "WHERE") is := by
    cases htext : f.text with
    | none =>
      rw [FilterPiece.body, htext] at hbody
      cases (plain_empty.reads 0).resolved.symm.trans hbody
      exact FilterPiece.reads_absent htext 0
    | some text =>
      rw [FilterPiece.body, htext] at hbody
      have hbalanced := inlinable_balanced.filter strict filter (fun t ht => (hfrag t ht).balanced) hcond h
      exact FilterPiece.reads_clause htext ⟨hbalanced text htext, hbody⟩ hwhere
  cases hjs.resolved.symm.trans his.resolved
  exact hbinds

namespace Statement

/-! ## Texts of descriptors -/

/-- The texts that a statement is made of: the conditions, at every depth, and the others. -/
structure Texts where
  fragments : List String
  conditions : List String

/-- No text leaves a literal open, only conditions hold placeholders, and no placeholder is numbered
zero. -/
structure Texts.Sound (t : Texts) : Prop where
  plain : ∀ x ∈ t.fragments, Plain x
  conditions : ∀ x ∈ t.conditions, IsCondition x

/-- The texts of a select record, if it can be read. -/
def Texts.ofRecord (record : Except Fault Value) : Texts :=
  match record with
  | .ok r => ⟨(Select.ofValue r).fragments, (Select.ofValue r).conditionTexts⟩
  | .error _ => ⟨[], []⟩

/-- The texts of a filter beside others. -/
def Texts.withFilter (fragments : List String) (filter : Filter) : Texts :=
  ⟨fragments ++ filter.fragments, filter.conditionTexts⟩

/-- The fields of a record that a descriptor is read as. -/
def fieldsOf (kind : RecordKind) (v : Value) : List Value :=
  match RecordKind.coerce kind v with
  | .ok (.record _ fields) => fields
  | _ => []

/-- The rows of an insert with the fields. -/
def tableOf (fields : List Value) : Table :=
  (Table.ofData (RecordKind.field .insert fields "data")).toOption.getD ⟨[], []⟩

/-- The fields of the upsert of an insert. -/
def upsertOf (fields : List Value) : List Value :=
  fieldsOf .upsert (RecordKind.field .insert fields "on_conflict")

/-- The texts of an insert without an upsert. -/
def insertFragments (fields : List Value) (rows : Table) : List String :=
  let field := RecordKind.field .insert fields
  (field "table_name").display ::
    (partText (field "on_conflict") (field "on_conflict").keywordText
      ++ (Value.texts rows.columns).toOption.getD [] ++ Clause.rawTexts rows.values.flatten
      ++ entryTexts (Clause.columns (field "returning")))

/-- The texts of a delete, its filter apart. -/
def deleteFragments (fields : List Value) : List String :=
  let field := RecordKind.field .delete fields
  (field "table_name").display :: (entryTexts (Clause.columns (field "returning"))
    ++ entryTexts (Clause.orderItems (field "order_by")))

/-- The filter of a delete. -/
def deleteFilter (fields : List Value) : Filter :=
  Select.readFilter Select.ofValue (RecordKind.field .delete fields "where")

/-- The texts of an insert. -/
def insertTexts (fields : List Value) : Texts :=
  if isUpsert (RecordKind.field .insert fields "on_conflict") then
    .withFilter (upsertFragments fields (upsertOf fields) (tableOf fields))
      (upsertGuard (upsertOf fields))
  else ⟨insertFragments fields (tableOf fields), []⟩

/-- The texts that the statement of a descriptor is made of. A descriptor that cannot be read has
none. -/
def texts (form : Form) (v : Value) : Texts :=
  match form with
  | .selectOne => .ofRecord (RecordKind.coerce .selectOne v)
  | .selectAll | .count => .ofRecord (selectRecord v)
  | .insert => insertTexts (fieldsOf .insert v)
  | .update =>
    .withFilter (updateFragments (fieldsOf .update v)) (updateFilter (fieldsOf .update v))
  | .delete =>
    .withFilter (deleteFragments (fieldsOf .delete v)) (deleteFilter (fieldsOf .delete v))
  | .createTable | .dropTable => ⟨[], []⟩

theorem Texts.Sound.of_withFilter {fragments : List String} {filter : Filter}
    (h : (Texts.withFilter fragments filter).Sound) :
    (∀ t ∈ fragments, Plain t) ∧ (∀ t ∈ filter.fragments, Plain t) ∧
      ∀ t ∈ filter.conditionTexts, IsCondition t := by
  obtain ⟨hplain, hconditions⟩ := h
  rw [Texts.withFilter, List.forall_mem_append] at hplain
  exact ⟨hplain.1, hplain.2, hconditions⟩

/-- A step that reads a descriptor reads its fields. -/
theorem coerce_fieldsOf {α : Type} {kind : RecordKind} {v : Value} {f : Value → Except Fault α}
    {a : α}
    (h : (RecordKind.coerce kind v >>= f) = .ok a) :
    ∃ given, RecordKind.coerce kind v = .ok (.record given (fieldsOf kind v)) := by
  obtain ⟨record, hrecord, -⟩ := bind_eq_ok.1 h
  obtain ⟨given, fields, rfl, -⟩ := RecordKind.coerce_eq_ok hrecord
  exact ⟨given, by rw [fieldsOf, hrecord]⟩

/-! ## Statements of a select -/

/-- A statement whose placeholders take the indexes `is`, each of which names an argument. -/
structure Covered (s : Statement) (sql : String) (is : List Int) : Prop where
  query : s.query = .text sql
  resolved : resolve sql 0 = .ok is
  named : ∀ i ∈ is, 1 ≤ i ∧ i ≤ s.arguments.length

/-- A statement of a select that is read, edited and written, where the edit keeps what the select
binds. -/
theorem covered_of_select {strict : Bool} {record : Except Fault Value} (edit : Select → Select)
    (mode : FetchMode)
    (hedit : ∀ {select : Select}, (∀ t ∈ select.fragments, Plain t) →
      (∀ t ∈ select.conditionTexts, Balanced t.toList) →
      ∀ {piece : Piece}, (edit select).compile strict 0 = .ok piece →
        ∃ is, select.Binds 0 is piece.arguments ∧ Reads 0 piece.sql is)
    (ht : (Texts.ofRecord record).Sound) {s : Statement}
    (h : (do
      let piece ← (edit (Select.ofValue (← record))).compile strict 0
      return ⟨.text piece.sql, piece.arguments, mode⟩) = Except.ok s) :
    ∃ sql is, Covered s sql is := by
  simp only [bind_eq_ok, pure_eq_ok] at h
  obtain ⟨r, rfl, piece, hpiece, rfl⟩ := h
  obtain ⟨is, hbinds, hreads⟩ := hedit ht.plain (fun t h => (ht.conditions t h).1) hpiece
  exact ⟨piece.sql, is, rfl, hreads.resolved, hbinds.named ht.conditions⟩

theorem selectOne_covered {strict : Bool} {v : Value} {s : Statement}
    (ht : (texts .selectOne v).Sound) (h : selectOne strict v = .ok s) :
    ∃ sql is, Covered s sql is :=
  covered_of_select (Select.withLimit (.int 1)) .one
    (fun hf hc _ hp => Select.reads_withLimit hf hc hp) ht h

theorem selectAll_covered {strict : Bool} {v : Value} {s : Statement}
    (ht : (texts .selectAll v).Sound) (h : selectAll strict v = .ok s) :
    ∃ sql is, Covered s sql is :=
  covered_of_select id .all (fun hf hc _ hp => Select.reads strict _ hf hc hp) ht h

theorem count_covered {strict : Bool} {v : Value} {s : Statement}
    (ht : (texts .count v).Sound) (h : count strict v = .ok s) : ∃ sql is, Covered s sql is :=
  covered_of_select Select.counting .one (fun hf hc _ hp => Select.reads_counting hf hc hp) ht h

/-! ## Deletes -/

/-- What a delete is made of. -/
theorem delete_eq_ok {strict : Bool} {v : Value} {s : Statement} (h : (delete strict v).2 = .ok s) :
    ∃ filter returning orderBy limit offset,
      (deleteFilter (fieldsOf .delete v)).compile strict "WHERE" 0 = .ok filter ∧
      Clause.returning (RecordKind.field .delete (fieldsOf .delete v) "returning") = .ok returning ∧
      Clause.orderBy (RecordKind.field .delete (fieldsOf .delete v) "order_by") = .ok orderBy ∧
      Clause.limit strict (RecordKind.field .delete (fieldsOf .delete v) "limit") = .ok limit ∧
      Clause.offset strict (RecordKind.field .delete (fieldsOf .delete v) "offset") = .ok offset ∧
      s = ⟨.text ("DELETE FROM "
          ++ (RecordKind.field .delete (fieldsOf .delete v) "table_name").display ++ filter.clause "WHERE" ++ returning ++ orderBy ++ limit ++ offset),
        filter.arguments, .all⟩ := by
  unfold delete at h
  dsimp only at h
  split at h
  · cases h
  · rename_i table filter field hstart
    obtain ⟨given, hgiven⟩ := coerce_fieldsOf hstart
    rw [hgiven, ok_bind] at hstart
    simp only [bind_eq_ok, pure_eq_ok] at hstart
    obtain ⟨name, hname, piece, hpiece, heq⟩ := hstart
    cases heq
    rw [deleteText] at h
    simp only [bind_eq_ok, pure_eq_ok] at h
    obtain ⟨returning, hreturning, orderBy, horder, limit, hlimit, offset, hoffset, rfl⟩ := h
    rw [requireTable_eq_ok hname]
    exact ⟨filter, returning, orderBy, limit, offset, hpiece, hreturning, horder, hlimit, hoffset,
      rfl⟩

theorem delete_covered {strict : Bool} {v : Value} {s : Statement} (ht : (texts .delete v).Sound)
    (h : (delete strict v).2 = .ok s) : ∃ sql is, Covered s sql is := by
  obtain ⟨filter, returning, orderBy, limit, offset, hfilter, hreturning, horder, hlimit, hoffset,
    rfl⟩ := delete_eq_ok h
  obtain ⟨hfragments, hfrag, hcond⟩ := ht.of_withFilter
  simp only [deleteFragments, List.forall_mem_cons, List.forall_mem_append] at hfragments
  obtain ⟨htable, hpr, hpo⟩ := hfragments
  have hlead : Plain "DELETE FROM " := plain_of_not_mem (by decide) (by decide)
  have hwhere : Plain "WHERE" := plain_of_not_mem (by decide) (by decide)
  obtain ⟨is, hbinds, hclause⟩ := Filter.reads strict _ hfrag (fun t h => (hcond t h).1) hfilter
  have hfiltered := (hlead.append htable).append_reads (hclause "WHERE" hwhere)
  have hreturned := hfiltered.append_plain (joinable_plain.returning hreturning hpr)
    (returning_led hreturning)
  have hordered := hreturned.append_plain (joinable_plain.orderBy horder hpo) (orderBy_led horder)
  obtain ⟨hlw, hll⟩ := limit_wording hlimit
  obtain ⟨how, hol⟩ := offset_wording hoffset
  have hreads := (hordered.append_plain hlw.plain hll).append_plain how.plain hol
  exact ⟨_, is, rfl, hreads.resolved, hbinds.named hcond⟩

/-! ## Updates -/

/-- A filter alone: it is written, and its placeholders take the indexes `js` of its own values. -/
structure Guarded (strict : Bool) (clause : String) (filter : Filter) (f : FilterPiece)
    (js : List Int) : Prop where
  compiled : filter.compile strict clause 0 = .ok f
  resolved : resolve f.body 0 = .ok js
  named : ∀ j ∈ js, 1 ≤ j ∧ j ≤ f.arguments.length

/-- A filter with written indexes takes, after any values, the indexes that it takes alone. -/
theorem guarded_reads {strict : Bool} {clause : String} {filter : Filter} {f g : FilterPiece}
    (hfrag : ∀ t ∈ filter.fragments, Plain t) (hcond : ∀ t ∈ filter.conditionTexts, IsCondition t)
    (h : filter.compile strict clause 0 = .ok f) (hg : f.numbered = .ok g) :
    ∃ js, Guarded strict clause filter f js ∧ ∀ p, Reads p (g.clause "WHERE") js := by
  have hbalanced : ∀ t ∈ filter.texts, Balanced t.toList := by
    rw [Filter.texts, List.forall_mem_append]
    exact ⟨fun t ht => (hfrag t ht).balanced, fun t ht => (hcond t ht).1⟩
  obtain ⟨js, hjs, -, hwhere⟩ := Filter.numbered_reads hbalanced h hg
  have hbinds := Filter.body_binds hfrag (fun t ht => (hcond t ht).1) h hjs
  exact ⟨js, ⟨h, hjs, hbinds.named hcond⟩, hwhere⟩

/-- The indexes after `start` name arguments where as many are there. -/
theorem named_of_mem_indexes {start n total : Nat} (hle : start + n ≤ total) {i : Int}
    (hi : i ∈ Clause.indexes start n) : 1 ≤ i ∧ i ≤ total := by
  have := Clause.le_of_mem_indexes hi
  omega

/-- In an update SET takes the indexes after those of WHERE. -/
theorem update_covered {strict : Bool} {v : Value} {s : Statement} (ht : (texts .update v).Sound)
    (h : update strict v = .ok s) :
    ∃ sql data filter js,
      (RecordKind.field .update (fieldsOf .update v) "data").asMap? = some data ∧
      Guarded strict "WHERE" (updateFilter (fieldsOf .update v)) filter js ∧
      s.arguments = filter.arguments ++ Clause.boundValues data.values ∧
      Covered s sql
        (Clause.indexes filter.arguments.length (Clause.boundValues data.values).length ++ js) := by
  obtain ⟨given, hv⟩ := coerce_fieldsOf h
  obtain ⟨data, filter, written, assigned, ending, hdata, hfilter, hwritten, hassigned, hending,
    rfl⟩ := update_eq_ok hv h
  obtain ⟨hfragments, hfrag, hcond⟩ := ht.of_withFilter
  simp only [updateFragments, hdata, Option.getD_some, List.forall_mem_cons,
    List.forall_mem_append, List.forall_mem_map] at hfragments
  obtain ⟨htable, ⟨⟨hconflict, hcolumns⟩, hraw⟩, hreturning⟩ := hfragments
  obtain ⟨js, hguarded, hwhere⟩ := guarded_reads hfrag hcond hfilter hwritten
  have hupdate : Plain "UPDATE " := plain_of_not_mem (by decide) (by decide)
  have hset : Plain " SET " := plain_of_not_mem (by decide) (by decide)
  have hkeyword := joinable_plain.conflictKeyword hconflict
  have hhead := ((hupdate.append hkeyword).append htable).append hset
  -- WHERE is read after SET, where its written indexes still name its own values
  have hassign := hhead.append_reads (Clause.assignments_reads hassigned hcolumns hraw 0)
  have hreads := (hassign.append_led (hwhere _) written.clause_led).append_plain
    (joinable_plain.returning hending hreturning) (returning_led hending)
  refine ⟨_, data, filter, js, hdata, hguarded, rfl, rfl, hreads.resolved, fun i hi => ?_⟩
  dsimp only
  rw [List.length_append]
  rcases List.mem_append.1 hi with hi | hi
  · exact named_of_mem_indexes (Nat.le_refl _) hi
  · have := hguarded.named i hi
    omega

/-! ## Inserts -/

theorem tableOf_eq {fields : List Value} {rows : Table}
    (h : Table.ofData (RecordKind.field .insert fields "data") = .ok rows) :
    tableOf fields = rows := by
  rw [tableOf, h]
  rfl

/-- An insert without an upsert takes one index after another. -/
theorem insert_covered {strict : Bool} {v : Value} {s : Statement} (ht : (texts .insert v).Sound)
    (hu : isUpsert (RecordKind.field .insert (fieldsOf .insert v) "on_conflict") = false)
    (h : insert strict v = .ok s) : ∃ sql is, Covered s sql is := by
  obtain ⟨given, hv⟩ := coerce_fieldsOf h
  obtain ⟨rows, tuples, inserted, columns, ending, fetch, hrows, htuples, hcolumns, hending, rfl⟩ :=
    insert_plain_eq_ok hv hu h
  rw [texts, insertTexts, hu, if_neg Bool.false_ne_true, tableOf_eq hrows] at ht
  have hplain := ht.plain
  simp only [insertFragments, List.forall_mem_cons, List.forall_mem_append] at hplain
  obtain ⟨htable, ⟨⟨hconflict, hnames⟩, hraw⟩, hreturning⟩ := hplain
  have hinsert : Plain "INSERT " := plain_of_not_mem (by decide) (by decide)
  have hinto : Plain "INTO " := plain_of_not_mem (by decide) (by decide)
  have hopen : Plain " (" := plain_of_not_mem (by decide) (by decide)
  have hvalues : Plain ") VALUES " := plain_of_not_mem (by decide) (by decide)
  have hkeyword := joinable_plain.conflictKeyword hconflict
  have hcolumn := Table.columnText_plain hcolumns hnames
  have hlead := ((hinsert.append hkeyword).append hinto).append htable
  have hhead := ((hlead.append hopen).append hcolumn).append hvalues
  have hrows : Clause.rows rows.values (0 : Nat) = .ok (tuples, inserted) := htuples
  have hrange := hhead.append_reads (Clause.commas_reads (Clause.rows_chain hrows hraw 0))
  have hreads := hrange.append_plain (joinable_plain.returning hending hreturning)
    (returning_led hending)
  obtain ⟨_, -, -, -, rfl⟩ := Clause.rows_eq_ok hrows
  refine ⟨_, _, rfl, hreads.resolved, fun i hi => ?_⟩
  exact named_of_mem_indexes (Nat.le_of_eq (Nat.zero_add _)) hi

theorem coerce_upsert {strict : Bool} {v : Value} {kind : RecordKind} {fields : List Value}
    {s : Statement} (hv : RecordKind.coerce .insert v = .ok (.record kind fields))
    (hu : isUpsert (RecordKind.field .insert fields "on_conflict") = true)
    (h : insert strict v = .ok s) :
    ∃ given, RecordKind.coerce .upsert (RecordKind.field .insert fields "on_conflict") =
      .ok (.record given (upsertOf fields)) := by
  rw [insert, hv, ok_bind] at h
  dsimp only at h
  simp only [bind_eq_ok] at h
  obtain ⟨table, -, rows, -, h⟩ := h
  rw [if_pos hu] at h
  exact coerce_fieldsOf h

/-- In an upsert the guard takes the first indexes, the update the next and the rows the last. -/
theorem upsert_covered {strict : Bool} {v : Value} {s : Statement} (ht : (texts .insert v).Sound)
    (hu : isUpsert (RecordKind.field .insert (fieldsOf .insert v) "on_conflict") = true)
    (h : insert strict v = .ok s) :
    ∃ sql rows data guard js,
      Table.ofData (RecordKind.field .insert (fieldsOf .insert v) "data") = .ok rows ∧
      (RecordKind.field .upsert (upsertOf (fieldsOf .insert v)) "data").asMap? = some data ∧
      Guarded strict "ON CONFLICT WHERE" (upsertGuard (upsertOf (fieldsOf .insert v))) guard js ∧
      s.arguments = guard.arguments ++ Clause.boundValues data.values
        ++ Clause.boundValues rows.values.flatten ∧
      Covered s sql
        (Clause.indexes (guard.arguments.length + (Clause.boundValues data.values).length : Nat)
            (Clause.boundValues rows.values.flatten).length
          ++ Clause.indexes guard.arguments.length (Clause.boundValues data.values).length
          ++ js) := by
  obtain ⟨given, hv⟩ := coerce_fieldsOf h
  obtain ⟨kind, hc⟩ := coerce_upsert hv hu h
  obtain ⟨rows, fetch, hrows, h⟩ := insert_upsert_eq_ok hv hu hc h
  obtain ⟨data, guard, written, tuples, inserted, columns, target, assigned, ending, hdata, hguard,
    hwritten, htuples, hcolumns, htarget, hassigned, hending, rfl⟩ := compileUpsert_eq_ok h
  rw [texts, insertTexts, hu, if_pos rfl, tableOf_eq hrows] at ht
  obtain ⟨hfragments, hfrag, hcond⟩ := ht.of_withFilter
  simp only [upsertFragments, hdata, Option.getD_some, List.forall_mem_cons,
    List.forall_mem_append, List.forall_mem_map] at hfragments
  obtain ⟨htable, ⟨⟨⟨⟨hnames, hrowraw⟩, hconflict⟩, hkeys⟩, hdataraw⟩, hreturning⟩ := hfragments
  obtain ⟨js, hguarded, hwhere⟩ := guarded_reads hfrag hcond hguard hwritten
  have hhead := upsert_head_plain htable (Table.columnText_plain hcolumns hnames)
  obtain ⟨hmiddle, hblank⟩ :=
    upsert_middle_plain (joinable_plain.conflictTarget htarget hconflict)
  have hrange := hhead.append_reads (Clause.commas_reads (Clause.rows_chain htuples hrowraw 0))
  have hset := hrange.append_between hmiddle hblank (by decide)
    (Clause.assignments_reads hassigned hkeys hdataraw _)
  have hread := (hset.append_led (hwhere _) written.clause_led).append_plain
    (joinable_plain.returning hending hreturning) (returning_led hending)
  obtain ⟨_, -, -, -, rfl⟩ := Clause.rows_eq_ok htuples
  refine ⟨_, rows, data, guard, js, hrows, hdata, hguarded, rfl,
    ⟨?_, hread.resolved, fun i hi => ?_⟩⟩
  · simp only [String.append_assoc]
  · dsimp only
    rw [List.length_append, List.length_append]
    rcases List.mem_append.1 hi with hi | hi
    · rcases List.mem_append.1 hi with hi | hi
      · exact named_of_mem_indexes (Nat.le_refl _) hi
      · exact named_of_mem_indexes (Nat.le_add_right _ _) hi
    · have := hguarded.named i hi
      omega

end Statement
end Querywright
