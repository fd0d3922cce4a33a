/-
  The subqueries in the text of a select.

  * `Carries`: pieces stand in a text one after another, and their values among its values in the
    same order, each piece and its values in one block.
  * `Value.innerSelects`: the select records that stand in a select record, as the tables of its
    joins or among the values of WHERE and HAVING.
  * `Select.carries`: a written select carries them in parentheses, each as it is written after some
    number of values.
-/
import Mathlib.Data.List.Forall2
import Querywright.Proofs.Select.Flattening
import Querywright.Proofs.Select.Matching
import Querywright.Proofs.Select.Reading

namespace Querywright

open Placeholder

/-! ## Pieces in a text -/

/-- The pieces stand in the text one after another, and their values among the values: each in one
block, and in the same order. -/
def Carries : List Piece → List Char → List Value → Prop
  | [], _, _ => True
  | piece :: rest, text, values => ∃ before after front back,
      text = before ++ (piece.sql.toList ++ after) ∧
        values = front ++ (piece.arguments ++ back) ∧ Carries rest after back

namespace Carries

variable {pieces : List Piece} {text : List Char} {values : List Value}

theorem behind (h : Carries pieces text values) (lead : List Char) (front : List Value) :
    Carries pieces (lead ++ text) (front ++ values) := by
  cases pieces with
  | nil => trivial
  | cons piece rest =>
    obtain ⟨before, after, front', back, rfl, rfl, hrest⟩ := h
    exact ⟨lead ++ before, after, front ++ front', back, (List.append_assoc _ _ _).symm,
      (List.append_assoc _ _ _).symm, hrest⟩

theorem append {more : List Piece} {text' : List Char} {values' : List Value}
    (h : Carries pieces text values) (hmore : Carries more text' values') :
    Carries (pieces ++ more) (text ++ text') (values ++ values') := by
  induction pieces generalizing text values with
  | nil => exact hmore.behind text values
  | cons piece rest ih =>
    obtain ⟨before, after, front, back, rfl, rfl, hrest⟩ := h
    refine ⟨before, after ++ text', front, back ++ values', ?_, ?_, ih hrest⟩
    · simp only [List.append_assoc]
    · simp only [List.append_assoc]

theorem followed (h : Carries pieces text values) (after : List Char) :
    Carries pieces (text ++ after) values := by
  have hnone : Carries [] after [] := trivial
  have happend := h.append hnone
  rwa [List.append_nil, List.append_nil] at happend

theorem sublist {kept : List Piece} (hkept : kept.Sublist pieces) (h : Carries pieces text values) :
    Carries kept text values := by
  induction hkept generalizing text values with
  | slnil => trivial
  | cons piece _ ih =>
    obtain ⟨before, after, front, back, rfl, rfl, hrest⟩ := h
    rw [← List.append_assoc, ← List.append_assoc]
    exact (ih hrest).behind _ _
  | cons_cons piece _ ih =>
    obtain ⟨before, after, front, back, rfl, rfl, hrest⟩ := h
    exact ⟨before, after, front, back, rfl, rfl, ih hrest⟩

theorem intercalate_cons {sep t : String} {texts : List String} {more : List Piece}
    {values' : List Value} (h : Carries pieces t.toList values)
    (hmore : Carries more (sep.intercalate texts).toList values') :
    Carries (pieces ++ more) (sep.intercalate (t :: texts)).toList (values ++ values') := by
  cases texts with
  | nil =>
    rw [String.intercalate_nil] at hmore
    rw [String.intercalate_singleton]
    have happend := h.append hmore
    rwa [String.toList_empty, List.append_nil] at happend
  | cons u texts =>
    rw [String.intercalate_cons_cons, String.toList_append, String.toList_append, List.append_assoc]
    exact h.append (hmore.behind sep.toList [])

end Carries

/-! ## Selects inside a select -/

/-- The select records that are joined. -/
def Join.selects (v : Value) : List Value :=
  match ofValues v with
  | .ok joins => (joins.map (·.table)).filter isSelect
  | .error _ => []

/-- The select record that a value of a filter stands for. -/
def Value.select? (v : Value) : Option Value := v.subquery?.filter Join.isSelect

/-- The select records among the values of a filter. -/
def ConditionSet.selects (v : Value) : List Value :=
  match coerce v with
  | .ok (some source) => (source.params.items?.getD []).filterMap Value.select?
  | _ => []

/-- The select records that stand in a select record, in the order of its clauses. -/
def Value.innerSelects : Value → List Value
  | .record kind fields =>
    Join.selects (kind.field fields "join") ++ ConditionSet.selects (kind.field fields "where")
      ++ ConditionSet.selects (kind.field fields "having")
  | _ => []

/-- The piece is the select record in parentheses, as it is written after some number of values. -/
def Select.StandsAs (strict : Bool) (s : Value) (piece : Piece) : Prop :=
  ∃ p own, (ofValue s).compile strict p = .ok own ∧ piece = own.parens

/-! ## Joins -/

theorem Join.carries_render (j : Join) (own : Piece) :
    Carries [own.parens] (j.render (some own.sql)).toList own.arguments := by
  refine ⟨j.opening.toList, j.closing.toList, [], [], ?_, ?_, trivial⟩
  · rw [Join.render_eq, String.toList_append, String.toList_append, List.append_assoc]
    rfl
  · exact (List.append_nil own.arguments).symm

theorem Joins.carries {strict : Bool} {joins : List Join} {p : Int} {texts : List String}
    {arguments : List Value}
    (h : (Select.readJoins Select.ofValue joins).compile strict p = .ok (texts, arguments)) :
    ∃ pieces, List.Forall₂ (Select.StandsAs strict)
        ((joins.map (·.table)).filter Join.isSelect) pieces ∧
      Carries pieces (" ".intercalate texts).toList arguments := by
  induction joins generalizing p texts arguments with
  | nil => exact ⟨[], .nil, trivial⟩
  | cons j rest ih =>
    rw [Select.readJoins] at h
    rw [List.map_cons]
    by_cases hselect : Join.isSelect j.table = true
    · rw [if_pos hselect] at h
      obtain ⟨own, others, more, hown, hrest, rfl, rfl⟩ := Joins.compile_query_eq_ok h
      obtain ⟨pieces, hstand, hcarries⟩ := ih hrest
      rw [List.filter_cons_of_pos hselect]
      exact ⟨own.parens :: pieces, .cons ⟨p, own, hown, rfl⟩ hstand,
        (j.carries_render own).intercalate_cons hcarries⟩
    · rw [if_neg hselect] at h
      obtain ⟨others, hrest, rfl⟩ := Joins.compile_table_eq_ok h
      obtain ⟨pieces, hstand, hcarries⟩ := ih hrest
      have hnone : Carries [] (j.render none).toList [] := trivial
      rw [List.filter_cons_of_neg hselect]
      exact ⟨pieces, hstand, hnone.intercalate_cons hcarries⟩

/-- The joins of a select, each after the others. -/
theorem Joins.carries_all {strict : Bool} {joins : List Join} {p : Int} {texts : List String}
    {arguments : List Value}
    (h : (Select.readJoins Select.ofValue joins).compile strict p = .ok (texts, arguments)) :
    ∃ pieces, List.Forall₂ (Select.StandsAs strict)
        ((joins.map (·.table)).filter Join.isSelect) pieces ∧
      Carries pieces
        (Join.renderAll (Select.readJoins Select.ofValue joins).isGiven texts).toList
        arguments := by
  cases joins with
  | nil => exact ⟨[], .nil, trivial⟩
  | cons j rest =>
    have hgiven : (Select.readJoins Select.ofValue (j :: rest)).isGiven = true := by
      rw [Select.readJoins]
      split <;> rfl
    obtain ⟨pieces, hstand, hcarries⟩ := Joins.carries h
    rw [hgiven, Join.renderAll, if_pos rfl, String.toList_append]
    exact ⟨pieces, hstand, hcarries.behind " ".toList []⟩

/-! ## Filters -/

namespace Filter

theorem carries_fill {ls : List Lexeme} {pieces : List Piece}
    (h : pieces.length = (marks ls).length) :
    Carries pieces (fill ls (textsOf pieces)) (argumentsOf pieces) := by
  induction ls generalizing pieces with
  | nil =>
    cases List.eq_nil_of_length_eq_zero h
    trivial
  | cons l rest ih =>
    cases l with
    | plain c => exact (ih h).behind [c] []
    | mark digits =>
      obtain ⟨piece, more, rfl⟩ := List.exists_cons_of_length_eq_add_one h
      exact ⟨[], _, [], _, rfl, rfl, ih (Nat.succ.inj h)⟩

theorem carries_joined {texts : List String} {pieces : List Piece}
    (h : pieces.length = markCounts texts) :
    Carries pieces (ConditionSet.joined (fillEach texts (textsOf pieces))).toList
      (argumentsOf pieces) := by
  induction texts generalizing pieces with
  | nil =>
    cases List.eq_nil_of_length_eq_zero h
    trivial
  | cons t rest ih =>
    obtain ⟨first, more, rfl, hcount, hcounts⟩ := exists_pieces h
    rw [fillEach_append hcount, argumentsOf, List.flatMap_append]
    refine Carries.intercalate_cons ?_ (ih hcounts)
    rw [String.toList_ofList]
    exact carries_fill (hcount.trans (length_marks t).symm)

/-- Among the pieces of a filter are those of its subqueries. -/
theorem standsAs_of_pieces {strict : Bool} {p : Int} {items : List Value} {pieces : List Piece}
    (h : piecesFrom p (items.map (slotOf strict)) = .ok pieces) :
    ∃ kept, kept.Sublist pieces ∧
      List.Forall₂ (Select.StandsAs strict) (items.filterMap Value.select?) kept := by
  induction items generalizing p pieces with
  | nil => exact ⟨[], List.nil_sublist _, .nil⟩
  | cons v rest ih =>
    rw [List.map_cons] at h
    obtain ⟨piece, more, hpiece, hmore, rfl⟩ := piecesFrom_cons_eq_ok.1 h
    obtain ⟨kept, hkept, hstand⟩ := ih hmore
    cases hv : v.select? with
    | none => exact ⟨kept, hkept.cons piece, by rwa [List.filterMap_cons_none hv]⟩
    | some s =>
      obtain ⟨hsub, -⟩ := Option.filter_eq_some_iff.1 hv
      rw [slotOf, hsub] at hpiece
      obtain ⟨own, hown, rfl⟩ := map_eq_ok.1 hpiece
      refine ⟨own.parens :: kept, hkept.cons_cons _, ?_⟩
      rw [List.filterMap_cons_some hv]
      exact .cons ⟨p, own, hown, rfl⟩ hstand

theorem selects_of_hasQuery {read : Value → Select} {items : List Value}
    (h : (Select.readParams read items).hasQuery = false) :
    items.filterMap Value.select? = [] := by
  refine List.filterMap_eq_nil_iff.2 fun v hv => ?_
  cases hsub : v.subquery? with
  | none => rw [Value.select?, hsub, Option.filter_none]
  | some s =>
    have hquery : (Select.readParams read items).hasQuery = true :=
      hasQuery_readParams ⟨v, hv, by rw [hsub, Option.isSome_some]⟩
    rw [h] at hquery
    cases hquery

theorem carries {strict : Bool} {v : Value} {clause : String} {p : Int} {f : FilterPiece}
    (h : (Select.readFilter Select.ofValue v).compile strict clause p = .ok f) (keyword : String) :
    ∃ pieces, List.Forall₂ (Select.StandsAs strict) (ConditionSet.selects v) pieces ∧
      Carries pieces (f.clause keyword).toList f.arguments := by
  rw [Select.readFilter] at h
  rw [ConditionSet.selects]
  cases hcoerce : ConditionSet.coerce v with
  | error e => exact ⟨[], .nil, trivial⟩
  | ok source? =>
    cases source? with
    | none => exact ⟨[], .nil, trivial⟩
    | some source =>
      rw [hcoerce] at h
      dsimp only at h ⊢
      rw [Select.readConditions, Filter.compile] at h
      split at h
      · rw [compileEmpty_items h]
        exact ⟨[], .nil, trivial⟩
      · obtain ⟨texts, htext, -, hcases⟩ := compileGiven_eq_ok h
        rcases hcases with ⟨-, -, hquery⟩ | ⟨conditions, -, hinline, -⟩
        · rw [selects_of_hasQuery hquery]
          exact ⟨[], .nil, trivial⟩
        · rw [slots_readParams] at hinline
          obtain ⟨own, pieces, -, -, hpieces, hcount, rfl, hbound⟩ := inlineQueries_eq_ok.1 hinline
          obtain ⟨kept, hkept, hstand⟩ := standsAs_of_pieces hpieces
          have hjoined := carries_joined ((length_piecesFrom hpieces).trans hcount.symm)
          refine ⟨kept, hstand, ?_⟩
          rw [FilterPiece.clause, htext, hbound]
          dsimp only
          rw [String.toList_append]
          exact (hjoined.sublist hkept).behind _ []

end Filter

/-! ## The whole text -/

theorem Clauses.carries_render {strict : Bool} {table joins : String} {f g : FilterPiece}
    {c : Clauses} {sql : String} (h : c.render strict table joins f g = .ok sql)
    {inJoins inWhere inHaving : List Piece} {fromJoins : List Value}
    (hj : Carries inJoins joins.toList fromJoins)
    (hf : Carries inWhere (f.clause "WHERE").toList f.arguments)
    (hg : Carries inHaving (g.clause "HAVING").toList g.arguments) :
    Carries (inJoins ++ inWhere ++ inHaving) sql.toList
      (fromJoins ++ f.arguments ++ g.arguments) := by
  obtain ⟨fields, groupBy, orderBy, limit, offset, -, -, -, -, -, rfl⟩ := Clauses.render_eq_ok h
  simp only [String.toList_append]
  have hfrom := hj.behind ("SELECT ".toList ++ fields.toList ++ " FROM ".toList ++ table.toList) []
  have hfilters := ((hfrom.append hf).followed groupBy.toList).append hg
  exact ((hfilters.followed orderBy.toList).followed limit.toList).followed offset.toList

/-- A written select carries the selects inside it: those of its joins, of WHERE and of HAVING, each
in parentheses and in this order, and what they bind among what it binds. -/
theorem Select.carries {strict : Bool} {v limit : Value} {p : Int} {piece : Piece}
    (h : ((ofValue v).withLimit limit).compile strict p = .ok piece) :
    ∃ pieces, List.Forall₂ (StandsAs strict) v.innerSelects pieces ∧
      Carries pieces piece.sql.toList piece.arguments := by
  cases v with
  | record kind fields =>
    rw [ofValue_record, ofFields, withLimit] at h
    obtain ⟨joined, fromJoins, f, g, hjoins, hwhere, hhaving, hsql, harguments⟩ :=
      Select.compile_eq_ok h
    rw [Value.innerSelects, Join.selects]
    cases hofValues : Join.ofValues (kind.field fields "join") with
    | error e =>
      rw [hofValues, Joins.compile] at hjoins
      cases hjoins
    | ok joins =>
      rw [hofValues] at hjoins hsql
      obtain ⟨inJoins, hstandJ, hcarriesJ⟩ := Joins.carries_all hjoins
      obtain ⟨inWhere, hstandW, hcarriesW⟩ := Filter.carries hwhere "WHERE"
      obtain ⟨inHaving, hstandH, hcarriesH⟩ := Filter.carries hhaving "HAVING"
      refine ⟨inJoins ++ inWhere ++ inHaving,
        List.rel_append (List.rel_append hstandJ hstandW) hstandH, ?_⟩
      rw [harguments]
      exact Clauses.carries_render hsql hcarriesJ hcarriesW hcarriesH
  | _ => exact ⟨[], .nil, trivial⟩

end Querywright
