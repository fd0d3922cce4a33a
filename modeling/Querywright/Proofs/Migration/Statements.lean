/-
  The statements that applying migrations sends: the definition of the table, the reading of it,
  the pieces of a script, and the row that records a migration.

  * `prepare_eq`, `applied_eq` and `perform_eq`: in a table that has a name, these are what is sent.
  * `prepare_unnamed`: in a table without a name nothing is sent.
-/
import Querywright.Migration.Basic
import Querywright.Proofs.Session.Block
import Querywright.Proofs.Statement.Insert

namespace Querywright

variable {σ : Type}

namespace Migrations

/-- The statement that creates the table. -/
def definition (m : Migrations) (d : Dialect) : Statement :=
  .plain ("CREATE TABLE IF NOT EXISTS " ++ m.table ++ " (" ++ schema d ++ ")")

/-- The statement that reads the table. -/
def reading (m : Migrations) : Statement where
  query := .text ("SELECT * FROM " ++ m.table ++ " ORDER BY id")
  fetch := .all

/-- The statement that records a name in the table. -/
def recording (m : Migrations) (name : String) : Statement where
  query := .text ("INSERT INTO " ++ m.table ++ " (name) VALUES (?1)")
  arguments := [.text name]
  fetch := .one

/-- The statements of a migration, in order. -/
def statements (m : Migrations) (x : Migration) : List Statement :=
  (Script.split x.sql).map Statement.plain ++ [m.recording x.name]

theorem definition_uncontrolled (m : Migrations) (d : Dialect) :
    (Adapter.Call.run (m.definition d)).control? = none := by
  refine Adapter.Call.control?_of_length rfl ?_
  have hlong : "CREATE TABLE IF NOT EXISTS ".length = 27 := rfl
  simp only [String.length_append]
  omega

theorem reading_uncontrolled (m : Migrations) :
    (Adapter.Call.run m.reading).control? = none := by
  refine Adapter.Call.control?_of_length rfl ?_
  have hlong : "SELECT * FROM ".length = 14 := rfl
  simp only [String.length_append]
  omega

theorem recording_uncontrolled (m : Migrations) (name : String) :
    (Adapter.Call.run (m.recording name)).control? = none := by
  refine Adapter.Call.control?_of_length rfl ?_
  have hlong : "INSERT INTO ".length = 12 := rfl
  simp only [String.length_append]
  omega

/-- Whether the table has a name. -/
def Named (m : Migrations) : Prop := Text.isBlankText m.table = false

/-! ## The table is created -/

/-- The request to create the table. -/
def definitionRequest (m : Migrations) (d : Dialect) : Except Fault (Query Runner) :=
  Request.createTable .null [("table_name", .text m.table), ("schema", .text (schema d)),
    ("if_not_exists", .bool true)]

/-- The record of that request. -/
def definitionRecord (m : Migrations) (d : Dialect) : List Value :=
  [.text m.table, .text (schema d), .bool true]

theorem definitionRequest_eq (m : Migrations) (d : Dialect) :
    m.definitionRequest d = (do
      return Request.collected
        (← Statement.createTable (.record .createTable (m.definitionRecord d)))) := rfl

/-- A schema begins with the name of the first column and ends with a keyword. -/
theorem schema_chars (d : Dialect) : ∃ s, (schema d).toList = 'i' :: (s ++ ['L']) := by
  have hfirst : "id         ".toList = 'i' :: "d         ".toList := rfl
  have hlast : "applied_at TIMESTAMP DEFAULT CURRENT_TIMESTAMP NOT NULL".toList =
      "applied_at TIMESTAMP DEFAULT CURRENT_TIMESTAMP NOT NUL".toList ++ ['L'] := rfl
  rw [schema, String.toList_append, String.toList_append, String.toList_append, hfirst, hlast,
    ← List.append_assoc]
  exact ⟨_, rfl⟩

/-- There is a schema, and nothing of it to trim. -/
theorem schema_given (d : Dialect) :
    (Value.text (schema d)).truth = true ∧ Text.isBlankText (schema d) = false ∧
      Text.strip (schema d) = schema d := by
  obtain ⟨s, hs⟩ := schema_chars d
  refine ⟨by cases d <;> rfl, ?_, ?_⟩
  · rw [Text.isBlankText, hs, List.all_eq_false]
    exact ⟨'i', List.mem_cons_self, by decide⟩
  · rw [Text.strip, hs, Text.stripChars_ends (by decide) (by decide), ← hs, String.ofList_toList]

theorem createTable_eq (m : Migrations) (d : Dialect) (h : m.Named) :
    Statement.createTable (.record .createTable (m.definitionRecord d))
      = .ok (m.definition d) := by
  obtain ⟨hgiven, hblank, hstrip⟩ := schema_given d
  have hcoerce : RecordKind.coerce .createTable (.record .createTable (m.definitionRecord d))
      = .ok (.record .createTable (m.definitionRecord d)) := rfl
  have htable : requireTable "create table"
      (RecordKind.field .createTable (m.definitionRecord d) "table_name") = .ok m.table :=
    requireTable_of_text rfl h
  have hschema : RecordKind.field .createTable (m.definitionRecord d) "schema"
      = .text (schema d) := rfl
  have hguard : (RecordKind.field .createTable (m.definitionRecord d) "if_not_exists").truth
      = true := rfl
  have hbody : Statement.blankWhenTrimmed (.text (schema d)) = .ok false :=
    congrArg Except.ok hblank
  rw [Statement.createTable, hcoerce, ok_bind]
  dsimp only
  rw [htable, hschema, hguard, hgiven, ok_bind, hbody]
  simp [Statement.trimmed, hstrip, definition, Statement.plain, pure, Except.pure]

theorem createTable_unnamed (m : Migrations) (d : Dialect) (h : ¬m.Named) :
    ∃ e, m.definitionRequest d = .error e := by
  have hblank : Text.isBlankText m.table = true := by simpa [Named] using h
  have htable : requireTable "create table" (.text m.table)
      = .error (.missingData "create table" "table_name") := by
    rw [requireTable, show (Value.text m.table).asText? = some m.table from rfl]
    dsimp only
    rw [hblank, if_pos rfl]
  refine ⟨.missingData "create table" "table_name", ?_⟩
  have hcoerce : RecordKind.coerce .createTable (.record .createTable (m.definitionRecord d))
      = .ok (.record .createTable (m.definitionRecord d)) := rfl
  have hname : RecordKind.field .createTable (m.definitionRecord d) "table_name"
      = .text m.table := rfl
  rw [definitionRequest_eq, Statement.createTable, hcoerce, ok_bind]
  dsimp only
  rw [hname, htable]
  rfl

/-! ## The table is read -/

/-- A select of one table without filters is written as its clauses say. -/
theorem compile_table {strict : Bool} {table sql : String} {clauses : Clauses}
    (h : Text.isBlankText table = false)
    (hsql : clauses.render strict table "" .absent .absent = .ok sql) :
    Select.compile strict 0 (.mk (.text table) .nil .absent .absent clauses)
      = .ok ⟨sql, []⟩ := by
  have habsent : Filter.compile strict "WHERE" 0 .absent = .ok .absent := by rw [Filter.compile]
  rw [Select.compile_unjoined h, habsent, ok_bind, hsql]
  rfl

/-- The clauses of a select that reads the table. -/
def readingClauses : Clauses := ⟨.null, .null, .text "id", .null, .null⟩

theorem render_reading (strict : Bool) (table : String) :
    readingClauses.render strict table "" .absent .absent
      = .ok ("SELECT * FROM " ++ table ++ " ORDER BY id") := by
  have hfields : Clause.fields readingClauses.fields = .ok "*" := rfl
  have hgroup : Clause.groupBy readingClauses.groupBy = .ok "" := rfl
  have horder : Clause.orderBy readingClauses.orderBy = .ok " ORDER BY id" := rfl
  have hlimit : Clause.limit strict readingClauses.limit = .ok "" := rfl
  have hoffset : Clause.offset strict readingClauses.offset = .ok "" := rfl
  rw [Clauses.render, hfields, hgroup, horder, hlimit, hoffset]
  simp [FilterPiece.clause, FilterPiece.absent, pure, Except.pure]

theorem render_counting (strict : Bool) (table : String) :
    ∃ sql, Clauses.render strict table "" .absent .absent
      ⟨.text "count(*) as total", .null, .text "id", .int 1, .null⟩ = .ok sql := by
  cases strict <;> exact ⟨_, rfl⟩

/-- The request to read the table. -/
def readingRequest (m : Migrations) (strict : Bool) : Except Fault (Query Runner) :=
  Request.all strict .null [("table_name", .text m.table), ("order_by", .text "id")]

theorem readingRequest_eq (m : Migrations) (strict : Bool) (h : m.Named) :
    ∃ q, m.readingRequest strict = .ok q ∧ q.statement = m.reading := by
  obtain ⟨sql, hcount⟩ := render_counting strict m.table
  let v : Value := .record .selectAll [.text m.table, .null, .null, .null, .null, .null,
    .text "id", .null, .null, .bool false]
  have hdescribed : Request.described .selectAll .null
      [("table_name", .text m.table), ("order_by", .text "id")] = .ok v := rfl
  have hall : Statement.selectAll strict v = .ok m.reading := by
    show (do
      let piece ← Select.compile strict 0
        (.mk (.text m.table) .nil .absent .absent readingClauses)
      return ⟨.text piece.sql, piece.arguments, .all⟩) = Except.ok m.reading
    rw [compile_table h (render_reading strict m.table)]
    rfl
  have hcounted : Statement.count strict v = .ok ⟨.text sql, [], .one⟩ := by
    show (do
      let piece ← Select.compile strict 0 (.mk (.text m.table) .nil .absent .absent
        ⟨.text "count(*) as total", .null, .text "id", .int 1, .null⟩)
      return (⟨.text piece.sql, piece.arguments, .one⟩ : Statement)) = Except.ok _
    rw [compile_table h hcount]
    rfl
  have hstreamed : Request.streamedOf v = .ok (.bool false) := rfl
  rw [readingRequest, Request.all, hdescribed, ok_bind, hstreamed, ok_bind, hall, ok_bind,
    hcounted]
  exact ⟨_, rfl, rfl⟩

/-! ## A migration is recorded -/

/-- The request to record a name. -/
def recordingRequest (m : Migrations) (strict : Bool) (name : String) :
    Except Fault (Query Runner) :=
  Request.insert strict .null
    [("table_name", .text m.table), ("data", .map [(.text "name", .text name)])]

theorem recordingRequest_eq (m : Migrations) (strict : Bool) (name : String) (h : m.Named) :
    m.recordingRequest strict name = .ok (Request.collected (m.recording name)) := by
  let fields : List Value := [.text m.table, .map [(.text "name", .text name)], .null, .null]
  have hdescribed : Request.described .insert .null
      [("table_name", .text m.table), ("data", .map [(.text "name", .text name)])]
      = .ok (.record .insert fields) := rfl
  have htable : requireTable "insert" (.text m.table) = .ok m.table :=
    requireTable_of_text rfl h
  have hcompiled : Statement.compileInsert m.table ⟨[.text "name"], [[.text name]]⟩ .null .null
      .one = .ok (m.recording name) := by
    have hrows : Clause.rows [[.text name]] 0 = .ok (["(?1)"], [.text name]) := rfl
    have hcolumns : Statement.Table.columnText ⟨[.text "name"], [[.text name]]⟩ = .ok "name" := rfl
    have hreturning : Clause.returning .null = .ok "" := rfl
    have htuples : Value.commas ["(?1)"] = "(?1)" := rfl
    have hconflict : Clause.conflictKeyword .null = "" := rfl
    rw [Statement.compileInsert, hrows, hcolumns, hreturning]
    simp [htuples, hconflict, recording, pure, Except.pure, String.append_assoc]
  have hinsert : Statement.insert strict (.record .insert fields) = .ok (m.recording name) := by
    show (do
      let table ← requireTable "insert" (.text m.table)
      Statement.compileInsert table ⟨[.text "name"], [[.text name]]⟩ .null .null .one)
        = Except.ok _
    rw [htable]
    exact hcompiled
  rw [recordingRequest, Request.insert, hdescribed, ok_bind, hinsert]
  rfl

/-! ## A piece of a script is run -/

theorem exists_of_stripBack_ne_nil {s : List Char} (h : Text.stripBack s ≠ []) :
    ∃ c ∈ Text.stripBack s, Text.isBlank c = false := by
  induction s with
  | nil => exact absurd rfl h
  | cons c rest ih =>
    unfold Text.stripBack at h ⊢
    split at h
    · split at h
      · exact absurd rfl h
      · rename_i hc
        exact ⟨c, by simp [hc], by simpa using hc⟩
    · rename_i hrest
      obtain ⟨c', hc', hblank⟩ := ih hrest
      exact ⟨c', List.mem_cons_of_mem c hc', hblank⟩

/-- A piece of a script is not blank. -/
theorem isBlankText_of_mem_split {script sql : String} (h : sql ∈ Script.split script) :
    Text.isBlankText sql = false := by
  obtain ⟨kept, hkept, rfl⟩ := List.mem_map.1 h
  obtain ⟨hpiece, hne⟩ := List.mem_filter.1 hkept
  obtain ⟨piece, -, rfl⟩ := List.mem_map.1 hpiece
  obtain ⟨c, hc, hblank⟩ := exists_of_stripBack_ne_nil (of_decide_eq_true hne)
  rw [Text.isBlankText, String.toList_ofList, List.all_eq_false]
  exact ⟨c, hc, by rw [hblank]; exact Bool.false_ne_true⟩

theorem text_eq {sql : String} (h : Text.isBlankText sql = false) :
    Request.text sql = .ok (Request.collected (.plain sql)) := by
  have hfetch : Statement.fetchMode (.keyword (.fetch .none)) = .ok .none := rfl
  have hgiven : (Value.text sql).truth = true := by
    rw [Value.truth, bne_iff_ne]
    rintro rfl
    cases h
  have hblank : Statement.blankWhenTrimmed (.text sql) = .ok false := congrArg Except.ok h
  rw [Request.text, Statement.raw, hfetch, hgiven, hblank]
  rfl

/-! ## What applying sends -/

theorem runQuery_collected (s : Session σ) {r : Except Fault (Query Runner)} {q : Query Runner}
    (h : r = .ok q) : runQuery s r = s.run q.statement := by
  subst h
  rfl

theorem prepare_eq (s : Session σ) (m : Migrations) (h : m.Named) :
    prepare s m = s.send (m.definition s.adapter.dialect) := by
  have hrequest : m.definitionRequest s.adapter.dialect
      = .ok (Request.collected (m.definition s.adapter.dialect)) := by
    rw [definitionRequest_eq, createTable_eq m _ h]
    rfl
  show (do let _ ← runQuery s (m.definitionRequest s.adapter.dialect)) = _
  rw [runQuery_collected s hrequest]
  rfl

theorem prepare_unnamed (s : Session σ) (m : Migrations) (h : ¬m.Named) (w : World σ) :
    ∃ e, prepare s m w = (.error e, w) := by
  obtain ⟨e, he⟩ := createTable_unnamed m s.adapter.dialect h
  refine ⟨e, ?_⟩
  show (do let _ ← runQuery s (m.definitionRequest s.adapter.dialect) : Action σ Unit) w = _
  rw [he]
  rfl

theorem applied_eq (s : Session σ) (m : Migrations) (h : m.Named) :
    applied s m = (do
      s.send (m.definition s.adapter.dialect)
      let result ← s.run m.reading
      return result.collected.rows) := by
  obtain ⟨q, hq, hstatement⟩ := readingRequest_eq m s.strict h
  show (do
    prepare s m
    let result ← runQuery s (m.readingRequest s.strict)
    return result.collected.rows) = _
  rw [prepare_eq s m h, runQuery_collected s hq, hstatement]

theorem pieces_eq (s : Session σ) {sqls : List String}
    (h : ∀ sql ∈ sqls, Text.isBlankText sql = false) :
    (sqls.forM fun sql => do let _ ← runQuery s (Request.text sql)) =
      (sqls.map Statement.plain).forM s.send := by
  induction sqls with
  | nil => rfl
  | cons sql rest ih =>
    have hfirst : (do let _ ← runQuery s (Request.text sql)) = s.send (.plain sql) := by
      rw [runQuery_collected s (text_eq (h sql List.mem_cons_self))]
      rfl
    have hrest := ih fun sql' hsql' => h sql' (List.mem_cons_of_mem sql hsql')
    exact congrArg₂ (fun a b => a >>= fun _ => b) hfirst hrest

theorem perform_eq (s : Session σ) (m : Migrations) (x : Migration) (h : m.Named) :
    perform s m x = (m.statements x).forM s.send := by
  have hpieces := pieces_eq s fun sql (hsql : sql ∈ Script.split x.sql) =>
    isBlankText_of_mem_split hsql
  have hlast : (do let _ ← runQuery s (m.recordingRequest s.strict x.name))
      = [m.recording x.name].forM s.send := by
    rw [runQuery_collected s (recordingRequest_eq m s.strict x.name h)]
    exact bind_pure_unit.symm
  refine Eq.trans ?_ List.forM_append.symm
  exact congrArg₂ (fun a b => a >>= fun _ => b) hpieces hlast

end Migrations
end Querywright
