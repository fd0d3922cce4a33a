/-
  The texts that a select is written from, and what is kept of them in what is written.

  * `fragments` lists the texts of a select at every depth, `conditionTexts` its conditions.
  * `Select.compile_eq_ok` and `Filter.compile_eq_ok` say what a written select and a written
    filter are made of.
  * `Inlinable`: a class of texts that is also closed under writing subqueries into conditions. It
    holds what is written from its texts: `Inlinable.select`, `Inlinable.filter`.
  * `inlinable_balanced`: so where no text leaves a literal open, neither does what is written.
-/
import Querywright.Proofs.Clause.Texts
import Querywright.Proofs.Select.Pieces

namespace Querywright

open Placeholder

/-! ## Texts at every depth -/

/-- The conditions of a set; there are none where they cannot be read. -/
def ConditionSet.textList (c : ConditionSet) : List String :=
  match c.texts with
  | .ok texts => texts
  | .error _ => []

section

variable {P : String → Prop} {c : ConditionSet} (h : ∀ t ∈ c.textList, P t)

include h

theorem ConditionSet.forall_texts {texts : List String} (htexts : c.texts = .ok texts) :
    ∀ t ∈ texts, P t := by
  rwa [textList, htexts] at h

/-- The same for conditions that are read one by one. -/
theorem ConditionSet.forall_conditions {conditions : List Value}
    (hconditions : c.conditions.items = .ok conditions) :
    ∀ texts, Value.texts conditions = .ok texts → ∀ t ∈ texts, P t := by
  intro texts htexts
  refine forall_texts h ?_
  rw [ConditionSet.texts, hconditions, ok_bind, htexts]

end

mutual

/-- The texts of a select at every depth, its conditions apart. -/
def Select.fragments : Select → List String
  | .mk table joins filter having clauses =>
    table.display :: (joins.fragments ++ filter.fragments ++ having.fragments ++ clauses.fragments)

/-- The texts of joins and of their selects. -/
def Joins.fragments : Joins → List String
  | .invalid _ => []
  | .nil => []
  | .table join rest => join.table.display :: (join.fragments ++ rest.fragments)
  | .query join select rest => join.fragments ++ select.fragments ++ rest.fragments

/-- The texts of the subqueries of a filter. -/
def Filter.fragments : Filter → List String
  | .invalid _ => []
  | .absent => []
  | .given _ params => params.fragments

/-- The texts of the subqueries among values. -/
def Params.fragments : Params → List String
  | .nil => []
  | .value _ rest => rest.fragments
  | .query select rest => select.fragments ++ rest.fragments

end

mutual

/-- The conditions of a select at every depth. -/
def Select.conditionTexts : Select → List String
  | .mk _ joins filter having _ =>
    joins.conditionTexts ++ filter.conditionTexts ++ having.conditionTexts

/-- The conditions of the selects of joins. -/
def Joins.conditionTexts : Joins → List String
  | .invalid _ => []
  | .nil => []
  | .table _ rest => rest.conditionTexts
  | .query _ select rest => select.conditionTexts ++ rest.conditionTexts

/-- The conditions of a filter and of its subqueries. -/
def Filter.conditionTexts : Filter → List String
  | .invalid _ => []
  | .absent => []
  | .given source params => source.textList ++ params.conditionTexts

/-- The conditions of the subqueries among values. -/
def Params.conditionTexts : Params → List String
  | .nil => []
  | .value _ rest => rest.conditionTexts
  | .query select rest => select.conditionTexts ++ rest.conditionTexts

end

/-! ## What a written select is made of -/

theorem requireTable_eq_ok {operation : String} {v : Value} {name : String}
    (h : requireTable operation v = .ok name) : name = v.display := by
  unfold requireTable at h
  split at h
  · split at h
    · cases h
    · cases h
      rfl
  · cases h

theorem requireTable_of_text {operation : String} {v : Value} {name : String}
    (hv : v.asText? = some name) (hn : Text.isBlankText name = false) :
    requireTable operation v = .ok v.display := by
  rw [requireTable, hv]
  dsimp only
  rw [hn, if_neg Bool.false_ne_true]

/-- A select of one table is written from its filter and its clauses. -/
theorem Select.compile_unjoined {table : String} (h : Text.isBlankText table = false)
    (strict : Bool) (p : Int) (filter : Filter) (clauses : Clauses) :
    (Select.mk (.text table) .nil filter .absent clauses).compile strict p = (do
      let f ← filter.compile strict "WHERE" p
      let sql ← clauses.render strict table "" f .absent
      return ⟨sql, f.arguments⟩) := by
  have htable : requireTable "select" (.text table) = .ok table := requireTable_of_text rfl h
  have hjoins : Joins.compile strict p .nil = .ok ([], []) := by rw [Joins.compile]
  have hunjoined : Join.renderAll Joins.nil.isGiven [] = "" := rfl
  have hcount : p + ([] : List Value).length = p := Int.add_zero p
  have habsent (clause : String) (p : Int) :
      Filter.compile strict clause p .absent = .ok .absent := by rw [Filter.compile]
  rw [Select.compile, htable, hjoins, ok_bind, ok_bind]
  simp only [hcount, habsent, ok_bind, hunjoined, List.nil_append, FilterPiece.absent,
    List.append_nil]

theorem Clauses.render_eq_ok {strict : Bool} {table joins : String} {filter having : FilterPiece}
    {c : Clauses} {sql : String} (h : c.render strict table joins filter having = .ok sql) :
    ∃ fields groupBy orderBy limit offset,
      Clause.fields c.fields = .ok fields ∧ Clause.groupBy c.groupBy = .ok groupBy ∧
      Clause.orderBy c.orderBy = .ok orderBy ∧ Clause.limit strict c.limit = .ok limit ∧
      Clause.offset strict c.offset = .ok offset ∧
      sql = "SELECT " ++ fields ++ " FROM " ++ table ++ joins ++ filter.clause "WHERE" ++ groupBy
        ++ having.clause "HAVING" ++ orderBy ++ limit ++ offset := by
  unfold Clauses.render at h
  simp only [bind_eq_ok, pure_eq_ok] at h
  obtain ⟨fields, hf, groupBy, hg, orderBy, ho, limit, hl, offset, hs, rfl⟩ := h
  exact ⟨fields, groupBy, orderBy, limit, offset, hf, hg, ho, hl, hs, rfl⟩

theorem Select.compile_eq_ok {strict : Bool} {p : Int} {table : Value} {joins : Joins}
    {filter having : Filter} {clauses : Clauses} {piece : Piece}
    (h : (Select.mk table joins filter having clauses).compile strict p = .ok piece) :
    ∃ joined fromJoins f g,
      joins.compile strict p = .ok (joined, fromJoins) ∧
      filter.compile strict "WHERE" (p + fromJoins.length) = .ok f ∧
      having.compile strict "HAVING" (p + fromJoins.length + f.arguments.length) = .ok g ∧
      clauses.render strict table.display (Join.renderAll joins.isGiven joined) f g =
        .ok piece.sql ∧
      piece.arguments = fromJoins ++ f.arguments ++ g.arguments := by
  rw [Select.compile] at h
  simp only [bind_eq_ok, pure_eq_ok] at h
  obtain ⟨name, hname, ⟨joined, fromJoins⟩, hj, f, hf, g, hg, sql, hsql, rfl⟩ := h
  rw [requireTable_eq_ok hname] at hsql
  exact ⟨joined, fromJoins, f, g, hj, hf, hg, hsql, rfl⟩

theorem Joins.compile_table_eq_ok {strict : Bool} {p : Int} {join : Join} {rest : Joins}
    {texts : List String} {arguments : List Value}
    (h : (Joins.table join rest).compile strict p = .ok (texts, arguments)) :
    ∃ others, rest.compile strict p = .ok (others, arguments) ∧
      texts = join.render none :: others := by
  rw [Joins.compile] at h
  simp only [bind_eq_ok, pure_eq_ok] at h
  obtain ⟨⟨others, _⟩, hrest, heq⟩ := h
  cases heq
  exact ⟨others, hrest, rfl⟩

theorem Joins.compile_query_eq_ok {strict : Bool} {p : Int} {join : Join} {select : Select}
    {rest : Joins} {texts : List String} {arguments : List Value}
    (h : (Joins.query join select rest).compile strict p = .ok (texts, arguments)) :
    ∃ piece others more, select.compile strict p = .ok piece ∧
      rest.compile strict (p + piece.arguments.length) = .ok (others, more) ∧
      texts = join.render (some piece.sql) :: others ∧ arguments = piece.arguments ++ more := by
  rw [Joins.compile] at h
  simp only [bind_eq_ok, pure_eq_ok] at h
  obtain ⟨piece, hpiece, ⟨others, more⟩, hrest, heq⟩ := h
  cases heq
  exact ⟨piece, others, more, hpiece, hrest, rfl, rfl⟩

/-! ## What a written filter is made of -/

theorem Filter.checkCount_eq_ok {clause text : String} {p : Int} {n : Nat}
    (h : Filter.checkCount clause text p n = .ok ()) : highestIndex text p = .ok (p + n) := by
  rw [Filter.checkCount, bind_eq_ok] at h
  obtain ⟨q, hq, h⟩ := h
  by_cases hn : q - p = n
  · rw [hq]
    exact congrArg Except.ok (by omega)
  · rw [if_neg hn] at h
    cases h

/-- A filter that has conditions: from its own texts, or from the texts with the subqueries
written into them. Its placeholders reach exactly its values. -/
theorem Filter.compileGiven_eq_ok {clause : String} {p : Int} {source : ConditionSet}
    {hasQuery : Bool} {slots : List Filter.Slot} {f : FilterPiece}
    (h : Filter.compileGiven clause p source hasQuery slots = .ok f) :
    ∃ texts, f.text = some (ConditionSet.joined texts) ∧
      highestIndex (ConditionSet.joined texts) p = .ok (p + f.arguments.length) ∧
      (source.texts = .ok texts ∧ source.params.items = .ok f.arguments ∧ hasQuery = false ∨
        ∃ conditions, source.conditions.items = .ok conditions ∧
          Filter.inlineQueries clause p conditions slots = .ok (texts, f.arguments) ∧
          hasQuery = true) := by
  rw [Filter.compileGiven, bind_eq_ok] at h
  obtain ⟨params, hparams, h⟩ := h
  cases hasQuery with
  | false =>
    simp only [Bool.false_eq_true, if_false, bind_eq_ok, pure_eq_ok] at h
    obtain ⟨texts, htexts, _, hcheck, rfl⟩ := h
    exact ⟨texts, rfl, Filter.checkCount_eq_ok hcheck, .inl ⟨htexts, hparams, rfl⟩⟩
  | true =>
    simp only [if_true, bind_eq_ok, pure_eq_ok] at h
    obtain ⟨conditions, hconditions, ⟨texts, bound⟩, hinline, _, hcheck, rfl⟩ := h
    exact ⟨texts, rfl, Filter.checkCount_eq_ok hcheck, .inr ⟨conditions, hconditions, hinline, rfl⟩⟩

theorem Filter.compileEmpty_eq_ok {clause : String} {source : ConditionSet} {f : FilterPiece}
    (h : Filter.compileEmpty clause source = .ok f) : f = ⟨some source, none, []⟩ := by
  unfold Filter.compileEmpty at h
  split at h
  · split at h <;> cases h
  · cases h
    rfl

/-- The placeholders of a written filter reach exactly the values that it binds. -/
theorem Filter.compile_counts {strict : Bool} {clause : String} {p : Int} {filter : Filter}
    {f : FilterPiece} (h : filter.compile strict clause p = .ok f) :
    (f.text = none ∧ f.arguments = []) ∨
      ∃ text, f.text = some text ∧ highestIndex text p = .ok (p + f.arguments.length) := by
  cases filter with
  | invalid cause =>
    rw [Filter.compile] at h
    cases h
  | absent =>
    rw [Filter.compile] at h
    cases h
    exact .inl ⟨rfl, rfl⟩
  | given source params =>
    rw [Filter.compile] at h
    split at h
    · rw [Filter.compileEmpty_eq_ok h]
      exact .inl ⟨rfl, rfl⟩
    · obtain ⟨texts, htext, hcount, _⟩ := Filter.compileGiven_eq_ok h
      exact .inr ⟨_, htext, hcount⟩

/-! ## Classes of texts that hold what is written -/

/-- What is written for a placeholder: a placeholder again, or a text of the class in
parentheses. -/
def Inlined (P : String → Prop) (text : List Char) : Prop :=
  text = ['?'] ∨ ∃ sql, P sql ∧ text = '(' :: sql.toList ++ [')']

/-- A class of texts that is closed under joining and under writing subqueries into conditions. -/
structure Inlinable (P : String → Prop) : Prop extends Joinable P where
  fill : ∀ {t : String} {texts : List (List Char)}, P t → (∀ x ∈ texts, Inlined P x) →
    P (String.ofList (Placeholder.fill (lex t.toList) texts))

theorem Joinable.clause {P : String → Prop} (hP : Joinable P) {keyword : String}
    (hkeyword : Wording keyword) {f : FilterPiece} (hf : ∀ text, f.text = some text → P text) :
    P (f.clause keyword) := by
  unfold FilterPiece.clause
  cases htext : f.text with
  | none => exact hP.empty
  | some text =>
    have hlead : Wording (" " ++ keyword ++ " ") :=
      ((Wording.append (by decide) hkeyword).append (by decide))
    exact hP.behind hlead (hf text htext)

theorem Joinable.render {P : String → Prop} (hP : Joinable P) {strict : Bool}
    {table joins : String} {f g : FilterPiece} {c : Clauses} {sql : String}
    (h : c.render strict table joins f g = .ok sql) (hc : ∀ t ∈ c.fragments, P t) (ht : P table)
    (hj : P joins) (hled : Led joins) (hf : ∀ text, f.text = some text → P text)
    (hg : ∀ text, g.text = some text → P text) : P sql := by
  obtain ⟨fields, groupBy, orderBy, limit, offset, hfields, hgroup, horder, hlimit, hoffset, rfl⟩ :=
    Clauses.render_eq_ok h
  simp only [Clauses.fragments, List.forall_mem_append] at hc
  obtain ⟨hlimit, hlimitLed⟩ := limit_wording hlimit
  obtain ⟨hoffset, hoffsetLed⟩ := offset_wording hoffset
  have hfrom : Ended ("SELECT " ++ fields ++ " FROM ") :=
    Ended.append (Wording.ended (by decide)) (by decide)
  have hopening : P ("SELECT " ++ fields ++ " FROM ") :=
    hP.before (hP.behind (by decide) (hP.fields hfields hc.1.1)) (by decide) (by decide)
  have hhead : P ("SELECT " ++ fields ++ " FROM " ++ table ++ joins) :=
    hP.append (hP.append hopening ht (.inl hfrom)) hj (.inr hled)
  have hwhere : P ("SELECT " ++ fields ++ " FROM " ++ table ++ joins ++ f.clause "WHERE") :=
    hP.append hhead (hP.clause (by decide) hf) (.inr f.clause_led)
  have hgrouped := hP.append hwhere (hP.groupBy hgroup hc.1.2) (.inr (groupBy_led hgroup))
  have hhaving : P (g.clause "HAVING") := hP.clause (by decide) hg
  have hfilters := hP.append hgrouped hhaving (.inr g.clause_led)
  have hordered := hP.append hfilters (hP.orderBy horder hc.2) (.inr (orderBy_led horder))
  exact hP.before (hP.before hordered hlimit hlimitLed) hoffset hoffsetLed

/-- A value, or a subquery that is written as a text of the class. -/
def Filter.Slot.Within (P : String → Prop) : Filter.Slot → Prop
  | .inl _ => True
  | .inr write => ∀ p piece, write p = .ok piece → P piece.sql

section

variable {P : String → Prop}

theorem Filter.inlined_of_pieces {p : Int} {slots : List Filter.Slot} {pieces : List Piece}
    (h : Filter.piecesFrom p slots = .ok pieces) (hs : ∀ slot ∈ slots, slot.Within P) :
    ∀ x ∈ Filter.textsOf pieces, Inlined P x := by
  induction slots generalizing p pieces with
  | nil =>
    cases h
    exact nofun
  | cons slot rest ih =>
    obtain ⟨piece, more, hpiece, hmore, rfl⟩ := Filter.piecesFrom_cons_eq_ok.1 h
    obtain ⟨hslot, hrest⟩ := List.forall_mem_cons.1 hs
    refine List.forall_mem_cons.2 ⟨?_, ih hmore hrest⟩
    cases slot with
    | inl v =>
      cases hpiece
      have hmark : "?".toList = ['?'] := by decide
      exact .inl hmark
    | inr write =>
      obtain ⟨sub, hsub, rfl⟩ := map_eq_ok.1 hpiece
      refine .inr ⟨sub.sql, hslot p sub hsub, ?_⟩
      show ("(" ++ sub.sql ++ ")").toList = _
      rw [String.toList_append, String.toList_append]
      rfl

theorem Inlinable.fillEach (hP : Inlinable P) {texts : List String} (ht : ∀ t ∈ texts, P t)
    {written : List (List Char)} (h : ∀ x ∈ written, Inlined P x) :
    ∀ t ∈ Filter.fillEach texts written, P t := by
  induction texts generalizing written with
  | nil => exact nofun
  | cons t rest ih =>
    obtain ⟨hhere, hrest⟩ := List.forall_mem_cons.1 ht
    exact List.forall_mem_cons.2
      ⟨hP.fill hhere h, ih hrest fun x hx => h x (List.mem_of_mem_drop hx)⟩

theorem Inlinable.inlineQueries (hP : Inlinable P) {clause : String} {p : Int}
    {conditions : List Value} {slots : List Filter.Slot} {written : List String}
    {bound : List Value} (h : Filter.inlineQueries clause p conditions slots = .ok (written, bound))
    (ht : ∀ texts, Value.texts conditions = .ok texts → ∀ t ∈ texts, P t)
    (hs : ∀ slot ∈ slots, slot.Within P) : ∀ t ∈ written, P t := by
  obtain ⟨texts, pieces, htexts, -, hpieces, -, rfl, -⟩ := Filter.inlineQueries_eq_ok.1 h
  exact hP.fillEach (ht texts htexts) (Filter.inlined_of_pieces hpieces hs)

theorem Join.renderAll_led (given : Bool) (texts : List String) :
    Led (Join.renderAll given texts) := by
  unfold Join.renderAll
  exact led_if (Led.of_head (c := ' ') rfl (by decide) _)

mutual

/-- A written select is of the class of its texts. -/
theorem Inlinable.select (hP : Inlinable P) (strict : Bool) : ∀ (select : Select),
    (∀ t ∈ select.fragments, P t) →
    (∀ t ∈ select.conditionTexts, P t) →
    ∀ {p : Int} {piece : Piece}, select.compile strict p = .ok piece → P piece.sql
  | .mk table joins filter having clauses, hf, hc, p, piece, h => by
    obtain ⟨joined, fromJoins, f, g, hj, hfilter, hhaving, hsql, _⟩ := Select.compile_eq_ok h
    simp only [Select.fragments, List.forall_mem_cons, List.forall_mem_append] at hf
    simp only [Select.conditionTexts, List.forall_mem_append] at hc
    obtain ⟨htable, ⟨⟨hfj, hff⟩, hfh⟩, hclauses⟩ := hf
    obtain ⟨⟨hcj, hcf⟩, hch⟩ := hc
    exact hP.render hsql hclauses htable (hP.renderAll (hP.joins strict joins hfj hcj hj))
      (Join.renderAll_led _ _) (hP.filter strict filter hff hcf hfilter)
      (hP.filter strict having hfh hch hhaving)

theorem Inlinable.joins (hP : Inlinable P) (strict : Bool) : ∀ (joins : Joins),
    (∀ t ∈ joins.fragments, P t) →
    (∀ t ∈ joins.conditionTexts, P t) →
    ∀ {p : Int} {texts : List String} {arguments : List Value},
      joins.compile strict p = .ok (texts, arguments) → ∀ t ∈ texts, P t
  | .invalid cause, _, _, p, texts, arguments, h => by
    rw [Joins.compile] at h
    cases h
  | .nil, _, _, p, texts, arguments, h => by
    rw [Joins.compile] at h
    cases h
    intro t ht
    cases ht
  | .table join rest, hf, hc, p, texts, arguments, h => by
    obtain ⟨others, hrest, rfl⟩ := Joins.compile_table_eq_ok h
    simp only [Joins.fragments, List.forall_mem_cons, List.forall_mem_append] at hf
    obtain ⟨htable, hjoin, hfr⟩ := hf
    rw [List.forall_mem_cons]
    exact ⟨hP.renderTable hjoin htable, hP.joins strict rest hfr hc hrest⟩
  | .query join select rest, hf, hc, p, texts, arguments, h => by
    obtain ⟨piece, others, more, hpiece, hrest, rfl, rfl⟩ := Joins.compile_query_eq_ok h
    simp only [Joins.fragments, List.forall_mem_append] at hf
    simp only [Joins.conditionTexts, List.forall_mem_append] at hc
    obtain ⟨⟨hjoin, hfs⟩, hfr⟩ := hf
    have hsub : P piece.sql := hP.select strict select hfs hc.1 hpiece
    rw [List.forall_mem_cons]
    exact ⟨hP.renderQuery hjoin hsub, hP.joins strict rest hfr hc.2 hrest⟩

/-- So is a filter after its subqueries have been written into it. -/
theorem Inlinable.filter (hP : Inlinable P) (strict : Bool) : ∀ (filter : Filter),
    (∀ t ∈ filter.fragments, P t) →
    (∀ t ∈ filter.conditionTexts, P t) →
    ∀ {clause : String} {p : Int} {f : FilterPiece}, filter.compile strict clause p = .ok f →
      ∀ text, f.text = some text → P text
  | .invalid cause, _, _, clause, p, f, h => by
    rw [Filter.compile] at h
    cases h
  | .absent, _, _, clause, p, f, h => by
    rw [Filter.compile] at h
    cases h
    intro text ht
    cases ht
  | .given source params, hf, hc, clause, p, f, h => by
    rw [Filter.fragments] at hf
    simp only [Filter.conditionTexts, List.forall_mem_append] at hc
    rw [Filter.compile] at h
    split at h
    · rw [Filter.compileEmpty_eq_ok h]
      intro text ht
      cases ht
    · have hslots := hP.slots strict params hf hc.2
      obtain ⟨texts, htext, _, hcases⟩ := Filter.compileGiven_eq_ok h
      have htexts : ∀ t ∈ texts, P t := by
        rcases hcases with ⟨hown, _⟩ | ⟨conditions, hconditions, hinline, _⟩
        · exact ConditionSet.forall_texts hc.1 hown
        · exact hP.inlineQueries hinline (ConditionSet.forall_conditions hc.1 hconditions) hslots
      intro text ht
      rw [htext] at ht
      cases ht
      exact hP.joined htexts

theorem Inlinable.slots (hP : Inlinable P) (strict : Bool) : ∀ (params : Params),
    (∀ t ∈ params.fragments, P t) →
    (∀ t ∈ params.conditionTexts, P t) → ∀ slot ∈ params.slots strict, slot.Within P
  | .nil, _, _ => by
    intro slot hm
    rw [Params.slots] at hm
    cases hm
  | .value v rest, hf, hc => by
    rw [Params.slots, List.forall_mem_cons]
    exact ⟨trivial, hP.slots strict rest hf hc⟩
  | .query select rest, hf, hc => by
    simp only [Params.fragments, List.forall_mem_append] at hf
    simp only [Params.conditionTexts, List.forall_mem_append] at hc
    rw [Params.slots, List.forall_mem_cons]
    exact ⟨fun p piece hp => hP.select strict select hf.1 hc.1 hp,
      hP.slots strict rest hf.2 hc.2⟩

end

end

/-! ## No literal is left open -/

/-- Writing balanced texts for the placeholders keeps the parity of the quotes. -/
theorem count_quote_fill {inside : Bool} {ls : List Lexeme} (hl : Lexed inside ls)
    {texts : List (List Char)} (h : ∀ x ∈ texts, Placeholder.Balanced x) :
    (fill ls texts).count quote % 2 = (unlex ls).count quote % 2 := by
  induction ls generalizing inside texts with
  | nil => rfl
  | cons l rest ih =>
    cases l with
    | plain c =>
      obtain ⟨i, hi⟩ := hl.tail
      have hparity := ih hi h
      rw [unlex_cons, Lexeme.text, fill, ← List.singleton_append, List.count_append,
        List.count_append]
      omega
    | mark digits =>
      obtain ⟨-, hdigits, -, hrest⟩ := hl
      have hmark := count_quote_mark hdigits
      rw [unlex_cons, List.count_append]
      cases texts with
      | nil =>
        have hkept : ('?' :: digits).count quote = 0 := hmark
        have hparity := ih hrest h
        rw [fill, List.count_append]
        omega
      | cons x more =>
        obtain ⟨hx, hmore⟩ := List.forall_mem_cons.1 h
        have hparity := ih hrest hmore
        unfold Placeholder.Balanced at hx
        rw [fill, List.count_append]
        omega

theorem inlinable_balanced : Inlinable fun s => Placeholder.Balanced s.toList where
  toJoinable := joinable_balanced
  fill := by
    intro t texts ht htexts
    have hbalanced : ∀ x ∈ texts, Placeholder.Balanced x := by
      intro x hx
      rcases htexts x hx with rfl | ⟨sql, hsql, rfl⟩
      · decide
      · unfold Placeholder.Balanced at hsql ⊢
        rw [List.count_append, List.count_cons_of_ne (by decide)]
        simpa [quote] using hsql
    have hparity := count_quote_fill (lexed_lexFrom false t.toList) hbalanced
    rw [unlex_lexFrom] at hparity
    rw [String.toList_ofList, Placeholder.Balanced, lex, hparity]
    exact ht

end Querywright
