/-
  Filters whose subqueries are written into their conditions, by how many placeholders and values
  there are.

  * `Filter.slotOf`: what a value of a filter is for the writing. The slots of the values that are
    read from a condition set are those of its items (`Filter.slots_readParams`).
  * `Filter.compile_queries`: with a subquery among its values a filter is written in two steps, the
    subqueries into the conditions and the count of the whole text after that.
  * `Filter.compile_matching`: such a filter is written if it has as many placeholders as values,
    and refused as a mismatch otherwise. Its placeholders then reach exactly what it binds.
-/
import Querywright.Proofs.Select.Numbering

namespace Querywright

open Placeholder

namespace Filter

/-! ## Filters of their own values -/

/-- What a value of a filter is while the subqueries are written. -/
def slotOf (strict : Bool) (v : Value) : Slot :=
  match v.subquery? with
  | some s => .inr fun p => (Select.ofValue s).compile strict p
  | none => .inl v

theorem slots_readParams (strict : Bool) (items : List Value) :
    (Select.readParams Select.ofValue items).slots strict = items.map (slotOf strict) := by
  induction items with
  | nil => rfl
  | cons v rest ih =>
    rw [Select.readParams_cons, List.map_cons, slotOf]
    cases v.subquery? with
    | none => exact congrArg (Sum.inl v :: ·) ih
    | some s => exact congrArg (Sum.inr (fun p => (Select.ofValue s).compile strict p) :: ·) ih

theorem hasQuery_readParams {read : Value → Select} {items : List Value}
    (h : ∃ v ∈ items, v.subquery?.isSome) : (Select.readParams read items).hasQuery = true := by
  obtain ⟨v, hv, hsome⟩ := h
  induction items with
  | nil => cases hv
  | cons w rest ih =>
    rw [Select.readParams_cons]
    cases hw : w.subquery? with
    | some s => rfl
    | none =>
      rcases List.mem_cons.1 hv with rfl | hrest
      · rw [hw] at hsome
        cases hsome
      · exact ih hrest

theorem checkCount_of_highestIndex {clause text : String} {p : Int} {n : Nat}
    (h : highestIndex text p = .ok (p + n)) : checkCount clause text p n = .ok () := by
  have hn : p + n - p = (n : Int) := by omega
  rw [checkCount, h, ok_bind, hn, if_pos rfl]
  rfl

/-- A filter with conditions and a subquery among its values is written in two steps. -/
theorem compile_queries {source : ConditionSet} {conditions items : List Value}
    (hgiven : source.isEmpty = false) (hconditions : source.conditions.items = .ok conditions)
    (hitems : source.params.items? = some items) (hquery : ∃ v ∈ items, v.subquery?.isSome)
    (strict : Bool) (clause : String) (p : Int) :
    (Select.readConditions Select.ofValue source).compile strict clause p = (do
      let (written, bound) ← inlineQueries clause p conditions (items.map (slotOf strict))
      checkCount clause (ConditionSet.joined written) p bound.length
      return ⟨some ⟨.tuple (written.map .text), .tuple bound⟩,
        some (ConditionSet.joined written), bound⟩) := by
  have hread : source.params.items = .ok items := by rw [Value.items, hitems]
  have hempty : ¬source.isEmpty = true := Bool.eq_false_iff.1 hgiven
  rw [Select.readConditions, hitems, Option.getD_some, Filter.compile, if_neg hempty,
    hasQuery_readParams hquery, slots_readParams, compileGiven, hread, ok_bind, if_pos rfl,
    hconditions, ok_bind]

/-- Where the texts of a filter leave no literal open, and its subqueries have no placeholder but in
their conditions, its conditions leave none open and its subqueries can be read where they stand. -/
theorem readable_of_texts {strict : Bool} {source : ConditionSet} {items : List Value}
    (hitems : source.params.items? = some items)
    (hquotes : ∀ t ∈ (Select.readConditions Select.ofValue source).fragments ++
      (Select.readConditions Select.ofValue source).conditionTexts, Balanced t.toList)
    (hmarks : ∀ t ∈ (Select.readConditions Select.ofValue source).fragments, scan t = .ok []) :
    (∀ t ∈ source.textList, Balanced t.toList) ∧
      ∀ slot ∈ items.map (slotOf strict), slot.Readable := by
  rw [Select.readConditions, Filter.fragments, Filter.conditionTexts, hitems, Option.getD_some,
    List.forall_mem_append, List.forall_mem_append] at hquotes
  rw [Select.readConditions, Filter.fragments, hitems, Option.getD_some] at hmarks
  obtain ⟨hfragments, htexts, hconditionTexts⟩ := hquotes
  have hplain := fun t ht => (⟨hfragments t ht, hmarks t ht⟩ : Plain t)
  have hreadable := Params.slots_readable strict _ hplain hconditionTexts
  rw [slots_readParams] at hreadable
  exact ⟨htexts, hreadable⟩

/-- A filter with conditions and a subquery among its values, whose placeholders are bare, is
written exactly if it has as many placeholders as values: each placeholder is replaced by the piece
of its value, each subquery among the values by what it binds, and the placeholders of the text
reach exactly the values. Otherwise it is refused: at the condition where the values run out, or at
the end where some are left. -/
theorem compile_matching {strict : Bool} {clause : String} {p : Int} {source : ConditionSet}
    {texts : List String} {items : List Value} {pieces : List Piece}
    (hgiven : source.isEmpty = false) (htexts : source.texts = .ok texts)
    (hitems : source.params.items? = some items) (hquery : ∃ v ∈ items, v.subquery?.isSome)
    (hquotes : ∀ t ∈ (Select.readConditions Select.ofValue source).fragments ++
      (Select.readConditions Select.ofValue source).conditionTexts, Balanced t.toList)
    (hmarks : ∀ t ∈ (Select.readConditions Select.ofValue source).fragments, scan t = .ok [])
    (hbare : ∀ t ∈ texts, AllBare t)
    (hpieces : piecesFrom p (items.map (slotOf strict)) = .ok pieces) :
    (markCounts texts = items.length →
      ∃ written, written = fillEach texts (textsOf pieces) ∧ written.length = texts.length ∧
        (Select.readConditions Select.ofValue source).compile strict clause p =
          .ok ⟨some ⟨.tuple (written.map .text), .tuple (argumentsOf pieces)⟩,
            some (ConditionSet.joined written), argumentsOf pieces⟩ ∧
        highestIndex (ConditionSet.joined written) p = .ok (p + (argumentsOf pieces).length)) ∧
    (items.length < markCounts texts →
      ∃ t ∈ texts, (Select.readConditions Select.ofValue source).compile strict clause p =
        .error (mismatch clause (some t) (items.length + 1) items.length)) ∧
    (markCounts texts < items.length →
      (Select.readConditions Select.ofValue source).compile strict clause p =
        .error (mismatch clause (some (ConditionSet.joined texts)) (markCounts texts)
          items.length)) := by
  obtain ⟨conditions, hconditions, hread⟩ := bind_eq_ok.1 htexts
  have hcompile := compile_queries hgiven hconditions hitems hquery strict clause p
  have hlength : (items.map (slotOf strict)).length = items.length := List.length_map _
  refine ⟨fun hsame => ?_, fun hmore => ?_, fun hfewer => ?_⟩
  · have hinline : inlineQueries clause p conditions (items.map (slotOf strict)) =
        .ok (fillEach texts (textsOf pieces), argumentsOf pieces) :=
      inlineQueries_eq_ok.2
        ⟨texts, pieces, hread, hbare, hpieces, hsame.trans hlength.symm, rfl, rfl⟩
    have hreach : highestIndex (ConditionSet.joined (fillEach texts (textsOf pieces))) p =
        .ok (p + (argumentsOf pieces).length) := by
      obtain ⟨hbalanced, hreadable⟩ := readable_of_texts hitems hquotes hmarks
      obtain ⟨is, hfilled, hreads⟩ := inlineQueries_reads hinline
        (ConditionSet.forall_conditions hbalanced hconditions) hreadable
      rw [hreads.highestIndex, hfilled.highest]
    refine ⟨_, rfl, length_fillEach _ _, ?_, hreach⟩
    rw [hcompile, hinline, ok_bind]
    dsimp only
    rw [checkCount_of_highestIndex hreach]
    rfl
  · have hshort : ∃ t ∈ texts, inlineQueries clause p conditions (items.map (slotOf strict)) = _ :=
      inlineQueries_of_more hread hbare hpieces (by rwa [hlength])
    obtain ⟨t, ht, herror⟩ := hshort
    refine ⟨t, ht, ?_⟩
    rw [hcompile, herror, hlength]
    rfl
  · have herror : inlineQueries clause p conditions (items.map (slotOf strict)) = _ :=
      inlineQueries_of_fewer hread hbare hpieces (by rwa [hlength])
    rw [hcompile, herror, hlength]
    rfl

/-- A value, a subquery and another value, for placeholders in two conditions. -/
def nestedConditions : ConditionSet :=
  ⟨.tuple [.text "a = ? AND id IN ?", .text "note = '?' OR n < ?"],
    .tuple [.int 1, plainSelect "c" "z = ?" (.int 3), .int 2]⟩

theorem compile_matching_nested :
    (Select.readConditions Select.ofValue nestedConditions).compile false "HAVING" 4 =
      .ok ⟨some ⟨.tuple [.text "a = ? AND id IN (SELECT * FROM c WHERE z = ?)",
          .text "note = '?' OR n < ?"], .tuple [.int 1, .int 3, .int 2]⟩,
        some "a = ? AND id IN (SELECT * FROM c WHERE z = ?) AND note = '?' OR n < ?",
        [.int 1, .int 3, .int 2]⟩ := by
  have hpieces : piecesFrom 4 ([.int 1, plainSelect "c" "z = ?" (.int 3), .int 2].map
      (slotOf false)) = .ok [⟨"?", [.int 1]⟩, ⟨"(SELECT * FROM c WHERE z = ?)", [.int 3]⟩,
        ⟨"?", [.int 2]⟩] := rfl
  have hquotes : ∀ t ∈ (Select.readConditions Select.ofValue nestedConditions).fragments ++
      (Select.readConditions Select.ofValue nestedConditions).conditionTexts,
      Balanced t.toList := by
    decide
  have hmarks : ∀ t ∈ (Select.readConditions Select.ofValue nestedConditions).fragments,
      marks (lex t.toList) = [] := by
    decide
  have hbare : ∀ t ∈ ["a = ? AND id IN ?", "note = '?' OR n < ?"], AllBare t := by decide
  obtain ⟨written, hwritten, -, hcompile, -⟩ :=
    (@compile_matching false "HAVING" 4 nestedConditions _ _ _ rfl rfl rfl
      ⟨_, .tail _ (.head _), rfl⟩ hquotes (fun t ht => scan_eq_nil_iff.2 (hmarks t ht)) hbare
      hpieces).1 (by decide)
  rw [hcompile, hwritten]
  rfl

end Filter
end Querywright
