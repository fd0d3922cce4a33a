/-
  A select and the select that counts its rows.

  * `Select.compile_counting`: what is written with any limit is also written as a count, which
    binds the same values.
  * `Clauses.marks_render`: where the columns and the grouping hold no placeholder and no text
    leaves a literal open, the placeholders of a select are those of its table, joins and WHERE, and
    then those of HAVING and the ordering.
  * `count_matches_query`: so a count binds what its select binds, by the same indexes, and does not
    depend on what it leaves out.
-/
import Querywright.Proofs.Select.Numbering
import Querywright.Proofs.Select.Reading

namespace Querywright

open Placeholder

/-! ## What is written as a count -/

/-- The clauses of a count. -/
def Clauses.counting (orderBy : Value) : Clauses :=
  ⟨.text "count(*) as total", .null, orderBy, .int 1, .null⟩

theorem Clauses.render_counting {strict : Bool} {orderBy : Value} {text : String}
    (h : Clause.orderBy orderBy = .ok text) (table joins : String) (f g : FilterPiece) :
    ∃ sql, (Clauses.counting orderBy).render strict table joins f g = .ok sql := by
  have hlimit : Clause.limit strict (.int 1) = .ok " LIMIT 1" := by cases strict <;> rfl
  have hfields : Clause.fields (.text "count(*) as total") = .ok "count(*) as total" := rfl
  have hgroupBy : Clause.groupBy .null = .ok "" := rfl
  have hoffset : Clause.offset strict .null = .ok "" := rfl
  exact ⟨_, by rw [render, counting, hfields, hgroupBy, h, hlimit, hoffset]; rfl⟩

/-- A select that is written, with any limit, is also written as a count, and both bind the same
values. -/
theorem Select.compile_counting {strict : Bool} {select : Select} {limit : Value} {p : Int}
    {piece : Piece} (h : (select.withLimit limit).compile strict p = .ok piece) :
    ∃ counted, select.counting.compile strict p = .ok counted ∧
      counted.arguments = piece.arguments := by
  obtain ⟨table, joins, filter, having, clauses⟩ := select
  rw [withLimit, Select.compile] at h
  simp only [bind_eq_ok, pure_eq_ok] at h
  obtain ⟨name, hname, ⟨joined, fromJoins⟩, hj, f, hf, g, hg, sql, hsql, rfl⟩ := h
  obtain ⟨_, _, _, _, _, -, -, horder, -⟩ := Clauses.render_eq_ok hsql
  obtain ⟨counted, hcounted⟩ :=
    Clauses.render_counting horder name (Join.renderAll joins.isGiven joined) f g
  refine ⟨⟨counted, fromJoins ++ f.arguments ++ g.arguments⟩, ?_, rfl⟩
  rw [counting, Select.compile, hname, ok_bind, hj, ok_bind]
  dsimp only
  rw [hf, ok_bind, hg, ok_bind]
  exact congrArg (· >>= _) hcounted

/-! ## Placeholders of the text -/

theorem marks_plain {s : String} (h : Plain s) : marks (lex s.toList) = [] :=
  scan_eq_nil_iff.1 h.unmarked

/-- The placeholders of a text behind one that leaves no literal open. -/
theorem marks_append_led {a b : String} (ha : Balanced a.toList) (hb : Led b) :
    marks (lex (a ++ b).toList) = marks (lex a.toList) ++ marks (lex b.toList) := by
  rw [String.toList_append, lex_append ha hb.not_continues, marks_append]

theorem marks_plain_append {a : String} (ha : Plain a) (b : String) :
    marks (lex (a ++ b).toList) = marks (lex b.toList) := by
  rw [String.toList_append, lex_append ha.balanced (ha.not_continues _), marks_append,
    marks_plain ha, List.nil_append]

theorem marks_append_plain {a b : String} (ha : Balanced a.toList) (hb : Plain b) (hl : Led b) :
    marks (lex (a ++ b).toList) = marks (lex a.toList) := by
  rw [marks_append_led ha hl, marks_plain hb, List.append_nil]

/-- The placeholders of a select whose columns and grouping hold none. -/
theorem Clauses.marks_render {strict : Bool} {table joins : String} {f g : FilterPiece}
    {c : Clauses} {sql : String} (h : c.render strict table joins f g = .ok sql)
    (hfields : ∀ t ∈ entryTexts (Clause.columns c.fields), Plain t)
    (hgroupBy : ∀ t ∈ entryTexts (Clause.columns c.groupBy), Plain t)
    (horderBy : ∀ t ∈ entryTexts (Clause.orderItems c.orderBy), Balanced t.toList)
    (hfront : Balanced (table ++ joins ++ f.clause "WHERE").toList)
    (hhaving : Balanced (g.clause "HAVING").toList) :
    ∃ orderBy, Clause.orderBy c.orderBy = .ok orderBy ∧
      marks (lex sql.toList) = marks (lex (table ++ joins ++ f.clause "WHERE").toList) ++
        marks (lex (g.clause "HAVING" ++ orderBy).toList) := by
  obtain ⟨fields, groupBy, orderBy, limit, offset, hf, hg, ho, hl, hs, rfl⟩ :=
    Clauses.render_eq_ok h
  obtain ⟨hlimit, hlimitLed⟩ := limit_wording hl
  obtain ⟨hoffset, hoffsetLed⟩ := offset_wording hs
  have hselect : Plain "SELECT " := plain_of_not_mem (by decide) (by decide)
  have hfrom : Plain " FROM " := plain_of_not_mem (by decide) (by decide)
  have hopening : Plain ("SELECT " ++ fields ++ " FROM ") :=
    (hselect.append (joinable_plain.fields hf hfields)).append hfrom
  have hgroup : Plain groupBy := joinable_plain.groupBy hg hgroupBy
  have hordered : Balanced (g.clause "HAVING" ++ orderBy).toList :=
    joinable_balanced.append hhaving (joinable_balanced.orderBy ho horderBy) (.inr (orderBy_led ho))
  have hbounded : Led (limit ++ offset) := hlimitLed.append hoffsetLed
  have hled : Led (groupBy ++ (g.clause "HAVING" ++ orderBy ++ (limit ++ offset))) :=
    (groupBy_led hg).append ((g.clause_led.append (orderBy_led ho)).append hbounded)
  refine ⟨orderBy, ho, ?_⟩
  calc marks (lex ("SELECT " ++ fields ++ " FROM " ++ table ++ joins ++ f.clause "WHERE" ++ groupBy
          ++ g.clause "HAVING" ++ orderBy ++ limit ++ offset).toList)
    _ = marks (lex (("SELECT " ++ fields ++ " FROM ") ++ ((table ++ joins ++ f.clause "WHERE") ++
          (groupBy ++ ((g.clause "HAVING" ++ orderBy) ++ (limit ++ offset))))).toList) := by
        simp only [String.append_assoc]
    _ = marks (lex (table ++ joins ++ f.clause "WHERE").toList) ++
          marks (lex ((g.clause "HAVING" ++ orderBy) ++ (limit ++ offset)).toList) := by
        rw [marks_plain_append hopening, marks_append_led hfront hled, marks_plain_append hgroup]
    _ = marks (lex (table ++ joins ++ f.clause "WHERE").toList) ++
          marks (lex (g.clause "HAVING" ++ orderBy).toList) := by
        rw [marks_append_plain hordered (hlimit.append hoffset).plain hbounded]

/-- A select, with any limit, and its count have the same placeholders. -/
theorem Select.marks_counting {strict : Bool} {table : Value} {joins : Joins}
    {filter having : Filter} {clauses : Clauses}
    (hquotes : ∀ t ∈ (Select.mk table joins filter having clauses).fragments ++
      (Select.mk table joins filter having clauses).conditionTexts, Balanced t.toList)
    (hmarks : ∀ t ∈ entryTexts (Clause.columns clauses.fields) ++
      entryTexts (Clause.columns clauses.groupBy), scan t = .ok []) {limit : Value} {p : Int}
    {piece counted : Piece}
    (h : ((Select.mk table joins filter having clauses).withLimit limit).compile strict p =
      .ok piece)
    (hcounted : (Select.mk table joins filter having clauses).counting.compile strict p =
      .ok counted) :
    marks (lex piece.sql.toList) = marks (lex counted.sql.toList) := by
  simp only [Select.fragments, Select.conditionTexts, List.forall_mem_append,
    List.forall_mem_cons, Clauses.fragments] at hquotes
  rw [List.forall_mem_append] at hmarks
  obtain ⟨⟨htable, ⟨⟨hfj, hff⟩, hfh⟩, ⟨hfields, hgroupBy⟩, horderBy⟩, ⟨hcj, hcf⟩, hch⟩ := hquotes
  obtain ⟨joined, fromJoins, f, g, hj, hf, hg, hsql, -⟩ := Select.compile_eq_ok h
  obtain ⟨joined', fromJoins', f', g', hj', hf', hg', hsql', -⟩ := Select.compile_eq_ok hcounted
  -- joins and filters are written after the same values, so they are the same texts
  cases hj.symm.trans hj'
  cases hf.symm.trans hf'
  cases hg.symm.trans hg'
  have hjoins := inlinable_balanced.joins strict joins hfj hcj hj
  have hjoined : Balanced (table.display ++ Join.renderAll joins.isGiven joined).toList :=
    joinable_balanced.append htable (joinable_balanced.renderAll hjoins)
      (.inr (Join.renderAll_led _ _))
  have hfront := joinable_balanced.append hjoined
    (joinable_balanced.clause (show Wording "WHERE" by decide)
      (inlinable_balanced.filter strict filter hff hcf hf)) (.inr f.clause_led)
  have hhaving := joinable_balanced.clause (show Wording "HAVING" by decide)
    (inlinable_balanced.filter strict having hfh hch hg)
  have hcolumn : ∀ t ∈ entryTexts (Clause.columns (.text "count(*) as total")), Plain t := by
    intro t ht
    rw [List.mem_singleton.1 ht]
    exact plain_of_not_mem (by decide) (by decide)
  obtain ⟨orderBy, horder, hwritten⟩ := Clauses.marks_render hsql
    (fun t ht => ⟨hfields t ht, hmarks.1 t ht⟩) (fun t ht => ⟨hgroupBy t ht, hmarks.2 t ht⟩)
    horderBy hfront hhaving
  obtain ⟨orderBy', horder', hwritten'⟩ := Clauses.marks_render hsql' hcolumn
    (fun t ht => absurd ht List.not_mem_nil) horderBy hfront hhaving
  cases horder.symm.trans horder'
  rw [hwritten, hwritten']

/-- Texts with the same placeholders bind the same indexes. -/
theorem resolve_of_marks {s t : String} (h : marks (lex s.toList) = marks (lex t.toList)) (p : Int) :
    resolve s p = resolve t p := by
  rw [resolve, resolve, numbers, numbers, h]

/-! ## Statements of a select record -/

namespace Statement

/-- A select record of all rows, by its fields. -/
def selectOf (table columns filter joins groupBy having orderBy offset limit streamed : Value) :
    Value :=
  .record .selectAll
    [table, columns, filter, joins, groupBy, having, orderBy, offset, limit, streamed]

section

variable {strict : Bool}
  {table columns filter joins groupBy having orderBy offset limit streamed : Value}

/-- The tree of a select record by its fields. -/
theorem ofValue_selectOf :
    Select.ofValue
        (selectOf table columns filter joins groupBy having orderBy offset limit streamed) =
      .mk table
        (match Join.ofValues joins with
          | .error e => .invalid e
          | .ok joins => Select.readJoins Select.ofValue joins)
        (Select.readFilter Select.ofValue filter) (Select.readFilter Select.ofValue having)
        ⟨columns, groupBy, orderBy, limit, offset⟩ :=
  Select.ofValue_record _ _

/-- Both statements of a select record, of all of its rows and of one, are written from its tree
with some limit. -/
theorem query_eq_ok {s : Statement}
    (h : selectAll strict
          (selectOf table columns filter joins groupBy having orderBy offset limit streamed) = .ok s ∨
        selectOne strict
          (selectOf table columns filter joins groupBy having orderBy offset limit streamed) = .ok s) :
    ∃ bound piece,
      ((Select.ofValue (selectOf table columns filter joins groupBy having orderBy offset limit
        streamed)).withLimit bound).compile strict 0 = .ok piece ∧
      s.query = .text piece.sql ∧ s.arguments = piece.arguments := by
  rcases h with h | h
  · obtain ⟨record, hrecord, h⟩ := bind_eq_ok.1 h
    cases hrecord
    obtain ⟨piece, hpiece, heq⟩ := bind_eq_ok.1 h
    cases heq
    exact ⟨limit, piece, hpiece, rfl, rfl⟩
  · obtain ⟨record, hrecord, h⟩ := bind_eq_ok.1 h
    cases hrecord
    obtain ⟨piece, hpiece, heq⟩ := bind_eq_ok.1 h
    cases heq
    exact ⟨.int 1, piece, hpiece, rfl, rfl⟩

/-- A count is written from the table, the joins, the filters and the ordering of its record. -/
theorem count_selectOf :
    count strict
        (selectOf table columns filter joins groupBy having orderBy offset limit streamed) =
      ((Select.ofValue (selectOf table .null filter joins .null having orderBy .null .null
        .null)).counting.compile strict 0).map fun piece =>
          ⟨.text piece.sql, piece.arguments, .one⟩ := by
  have hrecord : selectRecord
      (selectOf table columns filter joins groupBy having orderBy offset limit streamed) =
    .ok (selectOf table columns filter joins groupBy having orderBy offset limit streamed) := rfl
  rw [count, hrecord, ok_bind, ofValue_selectOf, ofValue_selectOf]
  rfl

end

/-- The count of a select record does not depend on its columns, grouping, bounds and streaming.
Where one of the record's queries is written, so is the count, and it binds the same values; and
where no text leaves a literal open, and neither columns nor grouping hold a placeholder, the
placeholders of both bind the same indexes. -/
theorem count_matches_query (strict : Bool)
    (table columns filter joins groupBy having orderBy offset limit streamed : Value) :
    let record := selectOf table columns filter joins groupBy having orderBy offset limit streamed
    (∀ columns' groupBy' offset' limit' streamed',
      count strict (selectOf table columns' filter joins groupBy' having orderBy offset' limit'
        streamed') = count strict record) ∧
    ∀ s, selectAll strict record = .ok s ∨ selectOne strict record = .ok s →
      ∃ c, count strict record = .ok c ∧ c.arguments = s.arguments ∧
        ((∀ t ∈ (Select.ofValue record).fragments ++ (Select.ofValue record).conditionTexts,
            Balanced t.toList) →
          (∀ t ∈ entryTexts (Clause.columns columns) ++ entryTexts (Clause.columns groupBy),
            scan t = .ok []) →
          ∃ sql counted, s.query = .text sql ∧ c.query = .text counted ∧
            resolve sql 0 = resolve counted 0 ∧
            ((∀ t ∈ (Select.ofValue record).fragments, scan t = .ok []) →
              ∃ is, resolve sql 0 = .ok is)) := by
  intro record
  refine ⟨fun columns' groupBy' offset' limit' streamed' => ?_, fun s hs => ?_⟩
  · rw [count_selectOf, count_selectOf]
  · obtain ⟨bound, piece, hpiece, hquery, harguments⟩ := query_eq_ok hs
    obtain ⟨counted, hcounted, hsame⟩ := Select.compile_counting hpiece
    refine ⟨⟨.text counted.sql, counted.arguments, .one⟩, ?_, hsame.trans harguments.symm,
      fun hquotes hmarks => ⟨piece.sql, counted.sql, hquery, rfl, ?_, fun hplain => ?_⟩⟩
    · have hrecord : selectRecord record = .ok record := rfl
      rw [count, hrecord, ok_bind, hcounted]
      rfl
    · rw [ofValue_selectOf] at hquotes hpiece hcounted
      exact resolve_of_marks (Select.marks_counting hquotes hmarks hpiece hcounted) 0
    · rw [List.forall_mem_append] at hquotes
      have hfragments := fun t ht => (⟨hquotes.1 t ht, hplain t ht⟩ : Plain t)
      obtain ⟨is, -, hreads⟩ := Select.reads_withLimit hfragments hquotes.2 hpiece
      exact ⟨is, hreads.resolved⟩

/-- A page of groups, from a joined subquery and one among the values. -/
def pagedSelect : Value :=
  selectOf (.text "a") (.list [.text "dept", .text "max(n)"])
    (.map [(.text "conditions", .list [.text "n = ?", .text "id IN ?"]),
      (.text "params", .list [.int 2, plainSelect "c" "z = ?" (.int 3)])])
    (.map [(.text "table", plainSelect "b" "x = ? AND note <> 'why?'" (.int 1)),
      (.text "alias", .text "s")])
    (.text "dept")
    (.map [(.text "conditions", .text "max(n) > ?5 OR n = ?4"),
      (.text "params", .list [.int 4, .int 5])])
    (.text "dept") (.int 10) (.int 5) (.bool true)

theorem count_matches_query_paged :
    ∃ s c sql counted, selectAll true pagedSelect = .ok s ∧ count true pagedSelect = .ok c ∧
      c.arguments = s.arguments ∧ s.query = .text sql ∧ c.query = .text counted ∧
      resolve sql 0 = .ok [1, 2, 3, 5, 4] ∧ resolve counted 0 = .ok [1, 2, 3, 5, 4] := by
  have hquotes : ∀ t ∈ (Select.ofValue pagedSelect).fragments
      ++ (Select.ofValue pagedSelect).conditionTexts, Balanced t.toList := by
    decide
  have hmarks : ∀ t ∈ ["dept", "max(n)"] ++ ["dept"], marks (lex t.toList) = [] := by
    decide
  have hindexes : (selectAll true pagedSelect).toOption.bind (fun s =>
      s.query.asText?.bind fun sql => (resolve sql 0).toOption) = some [1, 2, 3, 5, 4] := by
    decide +kernel
  cases hs : selectAll true pagedSelect with
  | error e =>
    rw [hs] at hindexes
    cases hindexes
  | ok s =>
    obtain ⟨c, hcount, harguments, hbinds⟩ :=
      (count_matches_query true _ _ _ _ _ _ _ _ _ _).2 s (.inl hs)
    obtain ⟨sql, counted, hsql, hcounted, hsame, -⟩ :=
      hbinds hquotes fun t ht => scan_eq_nil_iff.2 (hmarks t ht)
    have hresolve : resolve sql 0 = .ok [1, 2, 3, 5, 4] := by
      rw [hs] at hindexes
      have hindexes : (s.query.asText?.bind fun sql => (resolve sql 0).toOption)
          = some [1, 2, 3, 5, 4] := hindexes
      rw [hsql] at hindexes
      have hindexes : (resolve sql 0).toOption = some [1, 2, 3, 5, 4] := hindexes
      cases hr : resolve sql 0 with
      | error e =>
        rw [hr] at hindexes
        cases hindexes
      | ok is =>
        rw [hr] at hindexes
        exact congrArg Except.ok (Option.some.inj hindexes)
    exact ⟨s, c, sql, counted, rfl, hcount, harguments, hsql, hcounted, hresolve,
      hsame.symm.trans hresolve⟩

end Statement

end Querywright
