/-
  Selects whose placeholders are bare, after any number of values.

  * `bare_fill`: what is written from bare texts is bare, so its placeholders reach as many values
    after any others (`checkCount_steady`).
  * `Select.compile_steady`: such a select is written alike after any number of values, or fails
    alike. The same holds for its joins and its filters, by the recursion of the writing.
  * `bare_select_anywhere`: so each select inside it stands there in parentheses as it is written on
    its own, and what it binds stands in one block among what the whole binds.
-/
import Querywright.Proofs.Select.Carried
import Querywright.Proofs.Select.InOrder
import Querywright.Statement.Select

namespace Querywright

open Placeholder

/-! ## What is written from bare texts is bare -/

/-- Subqueries written into a bare text: no digit comes to stand behind a question mark. -/
theorem bare_fill {inside : Bool} {s : List Char} (h : Bare s) {texts : List (List Char)}
    (ht : ∀ x ∈ texts, Inlined (fun t => Bare t.toList) x) :
    Bare (fill (lexFrom inside s) texts) ∧
      ((∀ d ∈ s.head?, Text.isDigit d = false) →
        ∀ d ∈ (fill (lexFrom inside s) texts).head?, Text.isDigit d = false) := by
  induction inside, s using lexFrom_induction generalizing texts with
  | nil inside => exact ⟨trivial, fun _ => nofun⟩
  | quote inside rest ih =>
    rw [lexFrom_quote]
    refine ⟨⟨nofun, (ih h.2 ht).1⟩, fun hhead => hhead⟩
  | mark rest ih =>
    have hhead : ∀ d ∈ rest.head?, Text.isDigit d = false := h.1 rfl
    have hnone : ∀ c ∈ ([] : List Char), Text.isDigit c = true := nofun
    obtain ⟨htake, hdrop⟩ := takeWhile_digits hnone hhead
    rw [List.nil_append] at htake hdrop
    rw [hdrop] at ih
    rw [lexFrom_mark, htake, hdrop]
    have hmark (more : List (List Char)) (hmore : ∀ x ∈ more, Inlined (fun t => Bare t.toList) x) :
        Bare ('?' :: fill (lexFrom false rest) more) :=
      ⟨fun _ => (ih h.2 hmore).2 hhead, (ih h.2 hmore).1⟩
    have hnotDigit : Text.isDigit '?' = false := isDigit_mark
    cases texts with
    | nil => exact ⟨hmark [] nofun, fun _ d hd => by cases hd; exact hnotDigit⟩
    | cons x more =>
      obtain ⟨hx, hmore⟩ := List.forall_mem_cons.1 ht
      rcases hx with rfl | ⟨sql, hsql, rfl⟩
      · exact ⟨hmark more hmore, fun _ d hd => by cases hd; exact hnotDigit⟩
      · have hsub : Bare ('(' :: sql.toList ++ [')']) := by
          have hparens := joinable_bare.parens hsql
          rw [String.toList_append, String.toList_append] at hparens
          exact hparens
        have hended : ('(' :: sql.toList ++ [')']).getLast? ≠ some '?' := by
          rw [List.getLast?_concat]
          decide
        refine ⟨hsub.append (ih h.2 hmore).1 (.inl hended), fun _ d hd => ?_⟩
        cases hd
        decide
  | plain inside c rest hq hm ih =>
    rw [lexFrom_plain rest hq hm]
    obtain ⟨hrest, hhead⟩ := ih h.2 ht
    exact ⟨⟨fun hc => hhead (h.1 hc), hrest⟩, fun hc => hc⟩

theorem inlinable_bare : Inlinable fun s => Bare s.toList where
  toJoinable := joinable_bare
  fill := by
    intro t texts ht htexts
    rw [String.toList_ofList]
    exact (bare_fill ht htexts).1

/-! ## Conditions after any number of values -/

/-- The placeholders of a bare text reach as many values after any others. -/
theorem checkCount_steady {text : String} (h : Bare text.toList) (clause : String) (p q : Int)
    (n : Nat) : Filter.checkCount clause text p n = Filter.checkCount clause text q n := by
  rw [Filter.checkCount, Filter.checkCount, highestIndex, highestIndex, resolve, resolve]
  cases hns : numbers text.toList with
  | error e => rfl
  | ok ns =>
    have hshift (r : Int) : highest r (assign r ns) - r = ns.length := by
      rw [h.numbers hns, highest_replicate, List.length_replicate]
      omega
    show (if highest p (assign p ns) - p = n then _ else _) =
      (if highest q (assign q ns) - q = n then _ else _)
    rw [hshift p, hshift q]

namespace Filter

/-- A value, or a subquery that is written alike after any number of values. -/
def Slot.Steady : Slot → Prop
  | .inl _ => True
  | .inr write => ∀ p q, write p = write q

section

variable {clause condition : String} {total : Nat} {s : List Slot × List Value}
  (hs : ∀ slot ∈ s.1, slot.Steady)

include hs

theorem writeMark_steady (p q : Int) (digits : List Char) :
    writeMark clause condition p total digits s = writeMark clause condition q total digits s := by
  obtain ⟨slots, bound⟩ := s
  unfold writeMark
  cases slots with
  | nil => rfl
  | cons slot rest =>
    cases slot with
    | inl v => rfl
    | inr write =>
      have hwrite : ∀ p q, write p = write q := hs _ List.mem_cons_self
      dsimp only
      rw [hwrite (p + bound.length) (q + bound.length)]

theorem Takes.steady {p : Int} {s' : List Slot × List Value} {pieces : List Piece}
    (h : Takes p s s' pieces) : ∀ slot ∈ s'.1, slot.Steady := by
  obtain ⟨used, hused, -⟩ := h.used
  rw [hused] at hs
  exact fun slot hm => hs slot (List.mem_append_right _ hm)

theorem writeMarks_steady (p q : Int) (ls : List Lexeme) :
    writeMarks (writeMark clause condition p total) ls s =
      writeMarks (writeMark clause condition q total) ls s := by
  induction ls generalizing s with
  | nil => rfl
  | cons l rest ih =>
    cases l with
    | plain c => rw [writeMarks, writeMarks, ih hs]
    | mark digits =>
      rw [writeMarks, writeMarks, writeMark_steady hs p q]
      cases hmark : writeMark clause condition q total digits s with
      | error e => rfl
      | ok r =>
        obtain ⟨here, s₁⟩ := r
        obtain ⟨-, piece, htakes, -⟩ := writeMark_eq_ok.1 hmark
        simp only [ok_bind]
        rw [ih (htakes.steady hs)]

theorem writeConditions_steady (p q : Int) (conditions : List Value) :
    writeConditions clause p total conditions s = writeConditions clause q total conditions s := by
  induction conditions generalizing s with
  | nil => rfl
  | cons v rest ih =>
    rw [writeConditions, writeConditions]
    cases v.asText? with
    | none => rfl
    | some t =>
      dsimp only
      rw [writeMarks_steady hs p q]
      cases hmarks : writeMarks (writeMark clause t q total) (lex t.toList) s with
      | error e => rfl
      | ok r =>
        obtain ⟨text, s₁⟩ := r
        obtain ⟨-, pieces, htakes, -⟩ := writeMarks_eq_ok.1 hmarks
        simp only [ok_bind]
        rw [ih (htakes.steady hs)]

end

theorem inlineQueries_steady {slots : List Slot} (hs : ∀ slot ∈ slots, slot.Steady)
    (clause : String) (p q : Int) (conditions : List Value) :
    inlineQueries clause p conditions slots = inlineQueries clause q conditions slots := by
  rw [inlineQueries, inlineQueries, writeConditions_steady hs p q]

theorem compileGiven_steady {source : ConditionSet} {slots : List Slot}
    (ht : ∀ t ∈ source.textList, Bare t.toList) (hs : ∀ slot ∈ slots, slot.Steady)
    (hb : ∀ slot ∈ slots, slot.Within fun t => Bare t.toList) (clause : String) (p q : Int)
    (hasQuery : Bool) :
    compileGiven clause p source hasQuery slots = compileGiven clause q source hasQuery slots := by
  rw [compileGiven, compileGiven]
  refine bind_congr fun params => ?_
  cases hasQuery with
  | false =>
    simp only [Bool.false_eq_true, if_false]
    cases htexts : source.texts with
    | error e => rfl
    | ok texts =>
      simp only [ok_bind]
      have hown := ConditionSet.forall_texts ht htexts
      rw [checkCount_steady (joinable_bare.joined hown) clause p q]
  | true =>
    simp only [if_true]
    cases hconditions : source.conditions.items with
    | error e => rfl
    | ok conditions =>
      simp only [ok_bind]
      rw [inlineQueries_steady hs clause p q]
      cases hinline : inlineQueries clause q conditions slots with
      | error e => rfl
      | ok r =>
        obtain ⟨written, bound⟩ := r
        have hwritten : ∀ t ∈ written, Bare t.toList :=
          inlinable_bare.inlineQueries hinline (ConditionSet.forall_conditions ht hconditions) hb
        simp only [ok_bind]
        rw [checkCount_steady (joinable_bare.joined hwritten) clause p q]

end Filter

/-! ## Selects after any number of values -/

mutual

/-- A select of bare texts is written alike after any number of values, or fails alike. -/
theorem Select.compile_steady (strict : Bool) : ∀ (select : Select),
    (∀ t ∈ select.fragments, Bare t.toList) → (∀ t ∈ select.conditionTexts, Bare t.toList) →
    ∀ (p q : Int), select.compile strict p = select.compile strict q
  | .mk table joins filter having clauses, hf, hc, p, q => by
    simp only [Select.fragments, List.forall_mem_cons, List.forall_mem_append] at hf
    simp only [Select.conditionTexts, List.forall_mem_append] at hc
    obtain ⟨-, ⟨⟨hfj, hff⟩, hfh⟩, -⟩ := hf
    obtain ⟨⟨hcj, hcf⟩, hch⟩ := hc
    rw [Select.compile, Select.compile, Joins.compile_steady strict joins hfj hcj p q]
    refine bind_congr fun table => bind_congr fun (joined, fromJoins) => ?_
    dsimp only
    rw [Filter.compile_steady strict filter hff hcf "WHERE" (p + fromJoins.length)
      (q + fromJoins.length)]
    refine bind_congr fun f => ?_
    rw [Filter.compile_steady strict having hfh hch "HAVING" _
      (q + fromJoins.length + f.arguments.length)]

theorem Joins.compile_steady (strict : Bool) : ∀ (joins : Joins),
    (∀ t ∈ joins.fragments, Bare t.toList) → (∀ t ∈ joins.conditionTexts, Bare t.toList) →
    ∀ (p q : Int), joins.compile strict p = joins.compile strict q
  | .invalid cause, _, _, p, q => by rw [Joins.compile, Joins.compile]
  | .nil, _, _, p, q => by rw [Joins.compile, Joins.compile]
  | .table join rest, hf, hc, p, q => by
    simp only [Joins.fragments, List.forall_mem_cons, List.forall_mem_append] at hf
    rw [Joins.conditionTexts] at hc
    rw [Joins.compile, Joins.compile, Joins.compile_steady strict rest hf.2.2 hc p q]
  | .query join select rest, hf, hc, p, q => by
    simp only [Joins.fragments, List.forall_mem_append] at hf
    simp only [Joins.conditionTexts, List.forall_mem_append] at hc
    rw [Joins.compile, Joins.compile, Select.compile_steady strict select hf.1.2 hc.1 p q]
    refine bind_congr fun piece => ?_
    rw [Joins.compile_steady strict rest hf.2 hc.2 _ (q + piece.arguments.length)]

theorem Filter.compile_steady (strict : Bool) : ∀ (filter : Filter),
    (∀ t ∈ filter.fragments, Bare t.toList) → (∀ t ∈ filter.conditionTexts, Bare t.toList) →
    ∀ (clause : String) (p q : Int),
      filter.compile strict clause p = filter.compile strict clause q
  | .invalid cause, _, _, clause, p, q => by rw [Filter.compile, Filter.compile]
  | .absent, _, _, clause, p, q => by rw [Filter.compile, Filter.compile]
  | .given source params, hf, hc, clause, p, q => by
    rw [Filter.fragments] at hf
    simp only [Filter.conditionTexts, List.forall_mem_append] at hc
    rw [Filter.compile, Filter.compile, Filter.compileGiven_steady hc.1
      (Params.slots_steady strict params hf hc.2) (inlinable_bare.slots strict params hf hc.2)
      clause p q]

theorem Params.slots_steady (strict : Bool) : ∀ (params : Params),
    (∀ t ∈ params.fragments, Bare t.toList) → (∀ t ∈ params.conditionTexts, Bare t.toList) →
    ∀ slot ∈ params.slots strict, slot.Steady
  | .nil, _, _ => by
    intro slot hm
    rw [Params.slots] at hm
    cases hm
  | .value v rest, hf, hc => by
    rw [Params.slots, List.forall_mem_cons]
    exact ⟨trivial, Params.slots_steady strict rest hf hc⟩
  | .query select rest, hf, hc => by
    simp only [Params.fragments, List.forall_mem_append] at hf
    simp only [Params.conditionTexts, List.forall_mem_append] at hc
    rw [Params.slots, List.forall_mem_cons]
    exact ⟨Select.compile_steady strict select hf.1 hc.1,
      Params.slots_steady strict rest hf.2 hc.2⟩

end

/-! ## Selects inside a select -/

section

variable {P : String → Prop}

/-- The texts of the selects that are joined are among those of the joins. -/
theorem Joins.forall_selects {joins : List Join}
    (hf : ∀ t ∈ (Select.readJoins Select.ofValue joins).fragments, P t)
    (hc : ∀ t ∈ (Select.readJoins Select.ofValue joins).conditionTexts, P t) :
    ∀ s ∈ (joins.map (·.table)).filter Join.isSelect,
      (∀ t ∈ (Select.ofValue s).fragments, P t) ∧ ∀ t ∈ (Select.ofValue s).conditionTexts, P t := by
  induction joins with
  | nil => exact List.forall_mem_nil _
  | cons j rest ih =>
    rw [Select.readJoins] at hf hc
    rw [List.map_cons]
    by_cases hselect : Join.isSelect j.table = true
    · rw [if_pos hselect] at hf hc
      simp only [Joins.fragments, List.forall_mem_append] at hf
      simp only [Joins.conditionTexts, List.forall_mem_append] at hc
      rw [List.filter_cons_of_pos hselect]
      exact List.forall_mem_cons.2 ⟨⟨hf.1.2, hc.1⟩, ih hf.2 hc.2⟩
    · rw [if_neg hselect] at hf hc
      simp only [Joins.fragments, List.forall_mem_cons, List.forall_mem_append] at hf
      rw [Joins.conditionTexts] at hc
      rw [List.filter_cons_of_neg hselect]
      exact ih hf.2.2 hc

/-- The texts of the selects among values are among those of the values. -/
theorem Params.forall_selects {items : List Value}
    (hf : ∀ t ∈ (Select.readParams Select.ofValue items).fragments, P t)
    (hc : ∀ t ∈ (Select.readParams Select.ofValue items).conditionTexts, P t) :
    ∀ s ∈ items.filterMap Value.select?,
      (∀ t ∈ (Select.ofValue s).fragments, P t) ∧ ∀ t ∈ (Select.ofValue s).conditionTexts, P t := by
  induction items with
  | nil => exact List.forall_mem_nil _
  | cons v rest ih =>
    rw [Select.readParams_cons] at hf hc
    cases hsub : v.subquery? with
    | none =>
      rw [hsub] at hf hc
      rw [Params.fragments] at hf
      rw [Params.conditionTexts] at hc
      rw [List.filterMap_cons_none (by rw [Value.select?, hsub, Option.filter_none])]
      exact ih hf hc
    | some s =>
      rw [hsub] at hf hc
      simp only [Params.fragments, List.forall_mem_append] at hf
      simp only [Params.conditionTexts, List.forall_mem_append] at hc
      intro s' hs'
      obtain ⟨w, hw, hselect⟩ := List.mem_filterMap.1 hs'
      obtain ⟨hsub', -⟩ := Option.filter_eq_some_iff.1 hselect
      rcases List.mem_cons.1 hw with rfl | hrest
      · cases hsub.symm.trans hsub'
        exact ⟨hf.1, hc.1⟩
      · exact ih hf.2 hc.2 s' (List.mem_filterMap.2 ⟨w, hrest, hselect⟩)

theorem Filter.forall_selects {v : Value}
    (hf : ∀ t ∈ (Select.readFilter Select.ofValue v).fragments, P t)
    (hc : ∀ t ∈ (Select.readFilter Select.ofValue v).conditionTexts, P t) :
    ∀ s ∈ ConditionSet.selects v,
      (∀ t ∈ (Select.ofValue s).fragments, P t) ∧ ∀ t ∈ (Select.ofValue s).conditionTexts, P t := by
  rw [Select.readFilter] at hf hc
  rw [ConditionSet.selects]
  cases hcoerce : ConditionSet.coerce v with
  | error e => exact List.forall_mem_nil _
  | ok source? =>
    cases source? with
    | none => exact List.forall_mem_nil _
    | some source =>
      rw [hcoerce] at hf hc
      dsimp only at hf hc ⊢
      rw [Select.readConditions, Filter.fragments] at hf
      simp only [Select.readConditions, Filter.conditionTexts, List.forall_mem_append] at hc
      exact Params.forall_selects hf hc.2

/-- The texts of the selects inside a select are among its own. -/
theorem Select.forall_innerSelects {v : Value} (hf : ∀ t ∈ (ofValue v).fragments, P t)
    (hc : ∀ t ∈ (ofValue v).conditionTexts, P t) :
    ∀ s ∈ v.innerSelects,
      (∀ t ∈ (ofValue s).fragments, P t) ∧ ∀ t ∈ (ofValue s).conditionTexts, P t := by
  cases v with
  | record kind fields =>
    rw [ofValue_record] at hf hc
    simp only [ofFields, Select.fragments, List.forall_mem_cons, List.forall_mem_append] at hf
    simp only [ofFields, Select.conditionTexts, List.forall_mem_append] at hc
    obtain ⟨-, ⟨⟨hfj, hfw⟩, hfh⟩, -⟩ := hf
    obtain ⟨⟨hcj, hcw⟩, hch⟩ := hc
    simp only [Value.innerSelects, List.forall_mem_append]
    refine ⟨⟨?_, Filter.forall_selects hfw hcw⟩, Filter.forall_selects hfh hch⟩
    rw [Join.selects]
    cases hofValues : Join.ofValues (kind.field fields "join") with
    | error e => exact List.forall_mem_nil _
    | ok joins =>
      rw [hofValues] at hfj hcj
      exact Joins.forall_selects hfj hcj
  | _ => exact List.forall_mem_nil _

end

/-- A limit is no text. -/
theorem Select.texts_withLimit (select : Select) (limit : Value) :
    (select.withLimit limit).fragments = select.fragments ∧
      (select.withLimit limit).conditionTexts = select.conditionTexts := by
  cases select with
  | mk table joins filter having clauses =>
    constructor
    · rw [withLimit, Select.fragments, Select.fragments]
      rfl
    · rw [withLimit, Select.conditionTexts, Select.conditionTexts]

/-- The select record, written on its own. -/
theorem Statement.selectAll_of_compile {strict : Bool} {s : Value} (h : Join.isSelect s = true)
    {own : Piece} (hown : (Select.ofValue s).compile strict 0 = .ok own) :
    selectAll strict s = .ok ⟨.text own.sql, own.arguments, .all⟩ := by
  rw [selectAll, selectRecord, if_pos h, ok_bind, hown]
  rfl

theorem Value.isSelect_of_innerSelects {v s : Value} (h : s ∈ v.innerSelects) :
    Join.isSelect s = true := by
  have hfilter (w : Value) (hw : s ∈ ConditionSet.selects w) : Join.isSelect s = true := by
    rw [ConditionSet.selects] at hw
    split at hw
    · obtain ⟨x, -, hx⟩ := List.mem_filterMap.1 hw
      exact (Option.filter_eq_some_iff.1 hx).2
    · cases hw
  cases v with
  | record kind fields =>
    simp only [innerSelects, List.mem_append] at h
    rcases h with (h | h) | h
    · rw [Join.selects] at h
      split at h
      · exact (List.mem_filter.1 h).2
      · cases h
    · exact hfilter _ h
    · exact hfilter _ h
  | _ => cases h

/-- A select whose placeholders are bare is written alike after any number of values, or fails
alike. Once it is written, the selects inside it stand in it one after another, in parentheses and
each as it is written on its own, and each with what it binds in one block. -/
theorem bare_select_anywhere {strict : Bool} {descriptor : Value}
    (hbare : ∀ t ∈ (Select.ofValue descriptor).fragments
      ++ (Select.ofValue descriptor).conditionTexts, Bare t.toList) (limit : Value) (p : Int) :
    ((Select.ofValue descriptor).withLimit limit).compile strict p =
      ((Select.ofValue descriptor).withLimit limit).compile strict 0 ∧
    ∀ piece, ((Select.ofValue descriptor).withLimit limit).compile strict p = .ok piece →
      ∃ pieces, List.Forall₂
          (fun s stands => ∃ own : Piece, stands = own.parens ∧
            Statement.selectAll strict s = .ok ⟨.text own.sql, own.arguments, .all⟩)
          descriptor.innerSelects pieces ∧
        Carries pieces piece.sql.toList piece.arguments := by
  obtain ⟨hf, hc⟩ := List.forall_mem_append.1 hbare
  obtain ⟨hfragments, hconditionTexts⟩ := Select.texts_withLimit (Select.ofValue descriptor) limit
  constructor
  · exact Select.compile_steady strict _ (by rwa [hfragments]) (by rwa [hconditionTexts]) p 0
  · intro piece h
    obtain ⟨pieces, hstand, hcarries⟩ := Select.carries h
    have hown : ∀ s ∈ descriptor.innerSelects, ∀ stands, Select.StandsAs strict s stands →
        ∃ own : Piece, stands = own.parens ∧
          Statement.selectAll strict s = .ok ⟨.text own.sql, own.arguments, .all⟩ := by
      rintro s hs stands ⟨q, own, hwritten, rfl⟩
      obtain ⟨hfs, hcs⟩ := Select.forall_innerSelects hf hc s hs
      rw [Select.compile_steady strict _ hfs hcs q 0] at hwritten
      exact ⟨own, rfl, Statement.selectAll_of_compile (Value.isSelect_of_innerSelects hs) hwritten⟩
    have hboth := (List.forall₂_and_left _ _).2 ⟨hown, hstand⟩
    exact ⟨pieces, hboth.imp fun s stands h => h.1 stands h.2, hcarries⟩

/-- Two of the three subqueries stand in the clauses of the select, the third in the second. -/
theorem bare_select_anywhere_deep :
    ∃ piece pieces, ((Select.ofValue deepSelect).withLimit (.int 5)).compile false 7 = .ok piece ∧
      ((Select.ofValue deepSelect).withLimit (.int 5)).compile false 0 = .ok piece ∧
      pieces.map Piece.sql = ["(SELECT * FROM b WHERE x = ? AND note <> 'why?')",
        "(SELECT * FROM c WHERE z IN (SELECT * FROM d WHERE w = ?))"] ∧
      Carries pieces piece.sql.toList piece.arguments := by
  have hbare : ∀ t ∈ (Select.ofValue deepSelect).fragments
      ++ (Select.ofValue deepSelect).conditionTexts, Bare t.toList := by
    decide
  have hcompiled := deepSelect_compiles (.int 5) (by simp)
  obtain ⟨hsame, hinner⟩ := @bare_select_anywhere false deepSelect hbare (.int 5) 7
  cases hp : ((Select.ofValue deepSelect).withLimit (.int 5)).compile false 7 with
  | error e =>
    rw [hp] at hcompiled
    cases hcompiled
  | ok piece =>
    obtain ⟨pieces, hstand, hcarries⟩ := hinner piece hp
    refine ⟨piece, pieces, rfl, hsame.symm.trans hp, ?_, hcarries⟩
    have hselects : deepSelect.innerSelects =
        [plainSelect "b" "x = ? AND note <> 'why?'" (.int 1),
          plainSelect "c" "z IN ?" (plainSelect "d" "w = ?" (.int 3))] := rfl
    have hjoined : Statement.selectAll false (plainSelect "b" "x = ? AND note <> 'why?'" (.int 1)) =
        .ok ⟨.text "SELECT * FROM b WHERE x = ? AND note <> 'why?'", [.int 1], .all⟩ := rfl
    have hamong : Statement.selectAll false
        (plainSelect "c" "z IN ?" (plainSelect "d" "w = ?" (.int 3))) =
        .ok ⟨.text "SELECT * FROM c WHERE z IN (SELECT * FROM d WHERE w = ?)", [.int 3], .all⟩ := rfl
    rw [hselects] at hstand
    obtain _ | ⟨⟨first, rfl, hfirst⟩, _ | ⟨⟨second, rfl, hsecond⟩, _ | _⟩⟩ := hstand
    rw [hjoined, Except.ok.injEq, Statement.mk.injEq, Value.text.injEq] at hfirst
    rw [hamong, Except.ok.injEq, Statement.mk.injEq, Value.text.injEq] at hsecond
    rw [List.map_cons, List.map_cons, Piece.parens, Piece.parens, ← hfirst.1, ← hsecond.1]
    rfl

end Querywright
