/-
  The numbering of a select is consistent in its whole text.

  * `Select.Binds`: the indexes that the placeholders of a select take after `p` values, and the
    values that it binds, clause by clause and at every depth. No clause reaches a value that a
    later clause binds.
  * `Select.reads`: where the texts of a select leave no literal open, and only conditions hold
    placeholders, these are the indexes of the placeholders of the whole written select.
  * `select_reaches_arguments`: so the text reaches exactly as many values as the select binds,
    after any number of values, and in every statement that is made of a select.
-/
import Querywright.Proofs.Select.Inlining
import Querywright.Statement.Select

namespace Querywright

open Placeholder

/-! ## What a select binds -/

mutual

/-- After `p` values the placeholders of the select take the indexes `is`, and the select binds
`as`. Joins come first, then WHERE, then HAVING. -/
inductive Select.Binds : Select → Int → List Int → List Value → Prop where
  | mk {table : Value} {joins : Joins} {filter having : Filter} {clauses : Clauses} {p : Int}
    {is js ks : List Int} {as bs cs : List Value} :
    joins.Binds p is as → (∀ i ∈ is, i ≤ p + as.length) →
    filter.Binds (p + as.length) js bs → (∀ j ∈ js, j ≤ p + as.length + bs.length) →
    having.Binds (p + as.length + bs.length) ks cs →
    Select.Binds (.mk table joins filter having clauses) p (is ++ js ++ ks) (as ++ bs ++ cs)

/-- The same for joins. Only selects hold placeholders. -/
inductive Joins.Binds : Joins → Int → List Int → List Value → Prop where
  | nil {p : Int} : Joins.Binds .nil p [] []
  | table {join : Join} {rest : Joins} {p : Int} {is : List Int} {as : List Value} :
    rest.Binds p is as → Joins.Binds (.table join rest) p is as
  | query {join : Join} {select : Select} {rest : Joins} {p : Int} {is js : List Int}
    {as bs : List Value} :
    select.Binds p is as → rest.Binds (p + as.length) js bs →
    Joins.Binds (.query join select rest) p (is ++ js) (as ++ bs)

/-- The same for a filter: without subqueries its conditions reach exactly its values. -/
inductive Filter.Binds : Filter → Int → List Int → List Value → Prop where
  | absent {p : Int} : Filter.Binds .absent p [] []
  | empty {source : ConditionSet} {params : Params} {p : Int} :
    source.isEmpty = true → Filter.Binds (.given source params) p [] []
  | values {source : ConditionSet} {params : Params} {p : Int} {texts : List String}
    {is : List Int} {as : List Value} :
    params.hasQuery = false → source.texts = .ok texts → source.params.items = .ok as →
    resolve (ConditionSet.joined texts) p = .ok is → highest p is = p + as.length →
    Filter.Binds (.given source params) p is as
  | queries {source : ConditionSet} {params : Params} {p : Int} {is : List Int}
    {as : List Value} :
    params.hasQuery = true → params.Binds p is as → Filter.Binds (.given source params) p is as

/-- The same for the values of a filter with subqueries: a value takes the next index. -/
inductive Params.Binds : Params → Int → List Int → List Value → Prop where
  | nil {p : Int} : Params.Binds .nil p [] []
  | value {v : Value} {rest : Params} {p : Int} {is : List Int} {as : List Value} :
    rest.Binds (p + 1) is as → Params.Binds (.value v rest) p ((p + 1) :: is) (v :: as)
  | query {select : Select} {rest : Params} {p : Int} {is js : List Int} {as bs : List Value} :
    select.Binds p is as → rest.Binds (p + as.length) js bs →
    Params.Binds (.query select rest) p (is ++ js) (as ++ bs)

end

/-- A relation between the number of values before, the indexes and the values that are bound. It
holds of nothing, of one value at the next index and of conditions from the class that reach
exactly their values, and it is kept where more is bound behind. -/
structure Cumulative (C : String → Prop) (Q : Int → List Int → List Value → Prop) : Prop where
  nil : ∀ p, Q p [] []
  value : ∀ p v, Q p [p + 1] [v]
  joined : ∀ {p : Int} {texts : List String} {is : List Int} {as : List Value},
    (∀ t ∈ texts, C t) → resolve (ConditionSet.joined texts) p = .ok is →
    highest p is = p + as.length → Q p is as
  append : ∀ {p : Int} {is js : List Int} {as bs : List Value},
    Q p is as → Q (p + as.length) js bs → Q p (is ++ js) (as ++ bs)

section Cumulative

variable {C : String → Prop} {Q : Int → List Int → List Value → Prop} (hQ : Cumulative C Q)

include hQ

mutual

/-- A cumulative relation holds of what a select binds. -/
theorem Select.Binds.cumulative : ∀ {select : Select} {p : Int} {is : List Int} {as : List Value},
    (∀ t ∈ select.conditionTexts, C t) → select.Binds p is as → Q p is as
  | .mk _ joins filter having _, p, _, _, hC, .mk hj _ hf _ hh => by
    simp only [Select.conditionTexts, List.forall_mem_append] at hC
    have hboth := hQ.append (Joins.Binds.cumulative hC.1.1 hj) (Filter.Binds.cumulative hC.1.2 hf)
    refine hQ.append hboth ?_
    rw [List.length_append, Int.natCast_add, ← Int.add_assoc]
    exact Filter.Binds.cumulative hC.2 hh

theorem Joins.Binds.cumulative : ∀ {joins : Joins} {p : Int} {is : List Int} {as : List Value},
    (∀ t ∈ joins.conditionTexts, C t) → joins.Binds p is as → Q p is as
  | .nil, p, _, _, _, .nil => hQ.nil p
  | .table _ rest, p, _, _, hC, .table h => by
    rw [Joins.conditionTexts] at hC
    exact Joins.Binds.cumulative hC h
  | .query _ select rest, p, _, _, hC, .query hs hr => by
    simp only [Joins.conditionTexts, List.forall_mem_append] at hC
    exact hQ.append (Select.Binds.cumulative hC.1 hs) (Joins.Binds.cumulative hC.2 hr)

theorem Filter.Binds.cumulative : ∀ {filter : Filter} {p : Int} {is : List Int} {as : List Value},
    (∀ t ∈ filter.conditionTexts, C t) → filter.Binds p is as → Q p is as
  | .absent, p, _, _, _, .absent => hQ.nil p
  | .given _ _, p, _, _, _, .empty _ => hQ.nil p
  | .given source _, p, _, _, hC, .values _ htexts _ hresolve hreach => by
    simp only [Filter.conditionTexts, List.forall_mem_append] at hC
    exact hQ.joined (ConditionSet.forall_texts hC.1 htexts) hresolve hreach
  | .given _ params, p, _, _, hC, .queries _ h => by
    simp only [Filter.conditionTexts, List.forall_mem_append] at hC
    exact Params.Binds.cumulative hC.2 h

theorem Params.Binds.cumulative : ∀ {params : Params} {p : Int} {is : List Int} {as : List Value},
    (∀ t ∈ params.conditionTexts, C t) → params.Binds p is as → Q p is as
  | .nil, p, _, _, _, .nil => hQ.nil p
  | .value v rest, p, _, _, hC, .value h => by
    rw [Params.conditionTexts] at hC
    exact hQ.append (hQ.value p v) (Params.Binds.cumulative hC h)
  | .query select rest, p, _, _, hC, .query hs hr => by
    simp only [Params.conditionTexts, List.forall_mem_append] at hC
    exact hQ.append (Select.Binds.cumulative hC.1 hs) (Params.Binds.cumulative hC.2 hr)

end

end Cumulative

theorem cumulative_highest :
    Cumulative (fun _ => True) fun p is as => highest p is = p + as.length where
  nil p := by simp [Placeholder.highest]
  value p _ := by
    show max p (p + 1) = p + (1 : Nat)
    omega
  joined _ _ hreach := hreach
  append hfirst hmore := by
    rw [highest_append, hfirst, hmore, List.length_append]
    omega

/-- The indexes of a select reach exactly the values that it binds. -/
theorem Select.Binds.highest {select : Select} {p : Int} {is : List Int} {as : List Value}
    (h : select.Binds p is as) : highest p is = p + as.length :=
  h.cumulative cumulative_highest fun _ _ => trivial

theorem Joins.Binds.highest {joins : Joins} {p : Int} {is : List Int} {as : List Value}
    (h : joins.Binds p is as) : highest p is = p + as.length :=
  h.cumulative cumulative_highest fun _ _ => trivial

theorem Filter.Binds.highest {filter : Filter} {p : Int} {is : List Int} {as : List Value}
    (h : filter.Binds p is as) : highest p is = p + as.length :=
  h.cumulative cumulative_highest fun _ _ => trivial

/-! ## Reading the parts of a select -/

/-- A clause is its keyword before the filter's text. -/
theorem FilterPiece.reads_clause {f : FilterPiece} {text keyword : String} {p : Int}
    {is : List Int} (ht : f.text = some text) (h : Reads p text is) (hk : Plain keyword) :
    Reads p (f.clause keyword) is := by
  have hblank : Plain " " := plain_of_not_mem (by decide) (by decide)
  rw [FilterPiece.clause, ht]
  exact ((hblank.append hk).append hblank).append_reads h

theorem FilterPiece.reads_absent {f : FilterPiece} {keyword : String} (ht : f.text = none)
    (p : Int) : Reads p (f.clause keyword) [] := by
  rw [FilterPiece.clause, ht]
  exact plain_empty.reads p

/-- Conditions without subqueries, joined. -/
theorem ConditionSet.reads_joined {texts : List String} {p q : Int}
    (hb : ∀ t ∈ texts, Balanced t.toList) (h : highestIndex (ConditionSet.joined texts) p = .ok q) :
    ∃ is, Reads p (ConditionSet.joined texts) is ∧ highest p is = q := by
  obtain ⟨is, hresolve, hreach⟩ := highestIndex_eq_ok.1 h
  exact ⟨is, ⟨joinable_balanced.joined hb, hresolve⟩, hreach⟩

/-- A join of a subquery holds the subquery's placeholders. -/
theorem Join.reads_query {j : Join} (hj : ∀ t ∈ j.fragments, Plain t) {p : Int} {sql : String}
    {is : List Int} (h : Reads p sql is) : Reads p (j.render (some sql)) is := by
  rw [Join.render_eq]
  exact ((joinable_plain.opening hj).append_reads h.parens).append_plain
    (joinable_plain.closing hj) j.closing_led

theorem Joins.texts_of_not_given {strict : Bool} {p : Int} {joins : Joins} {texts : List String}
    {arguments : List Value} (h : joins.compile strict p = .ok (texts, arguments))
    (hg : joins.isGiven = false) : texts = [] := by
  cases joins with
  | nil =>
    rw [Joins.compile] at h
    cases h
    rfl
  | invalid cause => cases hg
  | table join rest => cases hg
  | query join select rest => cases hg

theorem Joins.reads_all {strict : Bool} {p : Int} {joins : Joins} {texts : List String}
    {arguments : List Value} {is : List Int}
    (h : joins.compile strict p = .ok (texts, arguments)) (hc : Chain p texts is) :
    Reads p (Join.renderAll joins.isGiven texts) is := by
  have hblank : Plain " " := plain_of_not_mem (by decide) (by decide)
  cases hg : joins.isGiven with
  | false =>
    rw [Joins.texts_of_not_given h hg] at hc ⊢
    cases hc
    exact plain_empty.reads p
  | true =>
    exact hblank.append_reads (hc.intercalate hblank (c := ' ') rfl (by decide))

/-- What a select is written as from its written joins and its written filters. -/
theorem Clauses.reads {strict : Bool} {table joins : String} {f g : FilterPiece} {c : Clauses}
    {sql : String} (h : c.render strict table joins f g = .ok sql)
    (hc : ∀ t ∈ c.fragments, Plain t) (htable : Plain table) {p : Int} {is js ks : List Int}
    (hjoins : Reads p joins is) (hf : Reads (highest p is) (f.clause "WHERE") js)
    (hg : Reads (highest p (is ++ js)) (g.clause "HAVING") ks) : Reads p sql (is ++ js ++ ks) := by
  obtain ⟨fields, groupBy, orderBy, limit, offset, hfields, hgroup, horder, hlimit, hoffset, rfl⟩ :=
    Clauses.render_eq_ok h
  simp only [Clauses.fragments, List.forall_mem_append] at hc
  obtain ⟨⟨hcf, hcg⟩, hco⟩ := hc
  have hselect : Plain "SELECT " := plain_of_not_mem (by decide) (by decide)
  have hfrom : Plain " FROM " := plain_of_not_mem (by decide) (by decide)
  have hhead : Plain ("SELECT " ++ fields ++ " FROM " ++ table) :=
    ((hselect.append (joinable_plain.fields hfields hcf)).append hfrom).append htable
  have hwhere : Reads p ("SELECT " ++ fields ++ " FROM " ++ table ++ joins ++ f.clause "WHERE")
      (is ++ js) :=
    (hhead.append_reads hjoins).append_led hf f.clause_led
  have hgrouped := hwhere.append_plain (joinable_plain.groupBy hgroup hcg) (groupBy_led hgroup)
  have hhaving := hgrouped.append_led hg g.clause_led
  have hordered := hhaving.append_plain (joinable_plain.orderBy horder hco) (orderBy_led horder)
  obtain ⟨hlw, hll⟩ := limit_wording hlimit
  obtain ⟨how, hol⟩ := offset_wording hoffset
  exact (hordered.append_plain hlw.plain hll).append_plain how.plain hol

/-! ## The whole text -/

mutual

/-- A select written after `p` values is read as it binds. -/
theorem Select.reads (strict : Bool) : ∀ (select : Select), (∀ t ∈ select.fragments, Plain t) →
    (∀ t ∈ select.conditionTexts, Balanced t.toList) →
    ∀ {p : Int} {piece : Piece}, select.compile strict p = .ok piece →
      ∃ is, select.Binds p is piece.arguments ∧ Reads p piece.sql is
  | .mk table joins filter having clauses, hfrag, hcond, p, piece, h => by
    obtain ⟨joined, fromJoins, f, g, hj, hf, hg, hsql, harguments⟩ := Select.compile_eq_ok h
    simp only [Select.fragments, List.forall_mem_cons, List.forall_mem_append] at hfrag
    simp only [Select.conditionTexts, List.forall_mem_append] at hcond
    obtain ⟨htable, ⟨⟨hfj, hff⟩, hfh⟩, hclauses⟩ := hfrag
    obtain ⟨⟨hcj, hcf⟩, hch⟩ := hcond
    obtain ⟨is, hbj, hchain⟩ := Joins.reads strict joins hfj hcj hj
    obtain ⟨js, hbf, hwhere⟩ := Filter.reads strict filter hff hcf hf
    obtain ⟨ks, hbh, hlast⟩ := Filter.reads strict having hfh hch hg
    have hboth : highest p (is ++ js) = p + fromJoins.length + f.arguments.length := by
      rw [highest_append, hbj.highest, hbf.highest]
    refine ⟨is ++ js ++ ks, ?_, ?_⟩
    · rw [harguments]
      refine .mk hbj (fun i hi => ?_) hbf (fun j hj => ?_) hbh
      · rw [← hbj.highest]
        exact le_highest_of_mem hi
      · rw [← hbf.highest]
        exact le_highest_of_mem hj
    · refine Clauses.reads hsql hclauses htable (Joins.reads_all hj hchain) ?_ ?_
      · rw [hbj.highest]
        exact hwhere _ (plain_of_not_mem (by decide) (by decide))
      · rw [hboth]
        exact hlast _ (plain_of_not_mem (by decide) (by decide))

theorem Joins.reads (strict : Bool) : ∀ (joins : Joins), (∀ t ∈ joins.fragments, Plain t) →
    (∀ t ∈ joins.conditionTexts, Balanced t.toList) →
    ∀ {p : Int} {texts : List String} {arguments : List Value},
      joins.compile strict p = .ok (texts, arguments) →
        ∃ is, joins.Binds p is arguments ∧ Chain p texts is
  | .invalid cause, _, _, p, texts, arguments, h => by
    rw [Joins.compile] at h
    cases h
  | .nil, _, _, p, texts, arguments, h => by
    rw [Joins.compile] at h
    cases h
    exact ⟨[], .nil, .nil p⟩
  | .table join rest, hfrag, hcond, p, texts, arguments, h => by
    obtain ⟨others, hrest, rfl⟩ := Joins.compile_table_eq_ok h
    simp only [Joins.fragments, List.forall_mem_cons, List.forall_mem_append] at hfrag
    obtain ⟨htable, hjoin, hfr⟩ := hfrag
    obtain ⟨is, hbinds, hchain⟩ := Joins.reads strict rest hfr hcond hrest
    have hrender : Plain (join.render none) := joinable_plain.renderTable hjoin htable
    exact ⟨is, .table hbinds, .cons (hrender.reads p) hchain⟩
  | .query join select rest, hfrag, hcond, p, texts, arguments, h => by
    obtain ⟨piece, others, more, hpiece, hrest, rfl, rfl⟩ := Joins.compile_query_eq_ok h
    simp only [Joins.fragments, List.forall_mem_append] at hfrag
    simp only [Joins.conditionTexts, List.forall_mem_append] at hcond
    obtain ⟨⟨hjoin, hfs⟩, hfr⟩ := hfrag
    obtain ⟨is, hbinds, hreads⟩ := Select.reads strict select hfs hcond.1 hpiece
    obtain ⟨js, hbinds', hchain⟩ := Joins.reads strict rest hfr hcond.2 hrest
    refine ⟨is ++ js, .query hbinds hbinds', .cons (Join.reads_query hjoin hreads) ?_⟩
    rw [hbinds.highest]
    exact hchain

/-- A written filter, as a clause of any keyword. -/
theorem Filter.reads (strict : Bool) : ∀ (filter : Filter), (∀ t ∈ filter.fragments, Plain t) →
    (∀ t ∈ filter.conditionTexts, Balanced t.toList) →
    ∀ {clause : String} {p : Int} {f : FilterPiece}, filter.compile strict clause p = .ok f →
      ∃ is, filter.Binds p is f.arguments ∧
        ∀ keyword, Plain keyword → Reads p (f.clause keyword) is
  | .invalid cause, _, _, clause, p, f, h => by
    rw [Filter.compile] at h
    cases h
  | .absent, _, _, clause, p, f, h => by
    rw [Filter.compile] at h
    cases h
    exact ⟨[], .absent, fun keyword _ => FilterPiece.reads_absent rfl p⟩
  | .given source params, hfrag, hcond, clause, p, f, h => by
    rw [Filter.fragments] at hfrag
    simp only [Filter.conditionTexts, List.forall_mem_append] at hcond
    obtain ⟨htexts, hcp⟩ := hcond
    rw [Filter.compile] at h
    split at h
    · rename_i hempty
      rw [Filter.compileEmpty_eq_ok h]
      exact ⟨[], .empty hempty, fun keyword _ => FilterPiece.reads_absent rfl p⟩
    · obtain ⟨texts, htext, hcount, hcases⟩ := Filter.compileGiven_eq_ok h
      rcases hcases with ⟨hown, hitems, hquery⟩ | ⟨conditions, hconditions, hinline, hquery⟩
      · obtain ⟨is, hreads, hreach⟩ :=
          ConditionSet.reads_joined (ConditionSet.forall_texts htexts hown) hcount
        exact ⟨is, .values hquery hown hitems hreads.resolved hreach,
          fun keyword hk => FilterPiece.reads_clause htext hreads hk⟩
      · obtain ⟨is, hfilled, hreads⟩ := Filter.inlineQueries_reads hinline
          (ConditionSet.forall_conditions htexts hconditions)
          (Params.slots_readable strict params hfrag hcp)
        exact ⟨is, .queries hquery (Params.binds_of_filled strict params hfrag hcp hfilled),
          fun keyword hk => FilterPiece.reads_clause htext hreads hk⟩

theorem Params.slots_readable (strict : Bool) : ∀ (params : Params),
    (∀ t ∈ params.fragments, Plain t) → (∀ t ∈ params.conditionTexts, Balanced t.toList) →
    ∀ slot ∈ params.slots strict, slot.Readable
  | .nil, _, _ => by
    intro slot hm
    rw [Params.slots] at hm
    cases hm
  | .value v rest, hfrag, hcond => by
    rw [Params.slots, List.forall_mem_cons]
    exact ⟨trivial, Params.slots_readable strict rest hfrag hcond⟩
  | .query select rest, hfrag, hcond => by
    simp only [Params.fragments, List.forall_mem_append] at hfrag
    simp only [Params.conditionTexts, List.forall_mem_append] at hcond
    rw [Params.slots, List.forall_mem_cons]
    refine ⟨fun p piece hp => ?_, Params.slots_readable strict rest hfrag.2 hcond.2⟩
    obtain ⟨is, hbinds, hreads⟩ := Select.reads strict select hfrag.1 hcond.1 hp
    exact ⟨is, hreads, hbinds.highest⟩

/-- The subqueries among the values of a filter bind what they bind where they stand alone. -/
theorem Params.binds_of_filled (strict : Bool) : ∀ (params : Params),
    (∀ t ∈ params.fragments, Plain t) → (∀ t ∈ params.conditionTexts, Balanced t.toList) →
    ∀ {p : Int} {is : List Int} {bound : List Value},
      Filter.Filled p (params.slots strict) is bound → params.Binds p is bound
  | .nil, _, _, p, is, bound, h => by
    rw [Params.slots] at h
    cases h
    exact .nil
  | .value v rest, hfrag, hcond, p, is, bound, h => by
    rw [Params.slots] at h
    cases h with
    | value hrest => exact .value (Params.binds_of_filled strict rest hfrag hcond hrest)
  | .query select rest, hfrag, hcond, p, is, bound, h => by
    simp only [Params.fragments, List.forall_mem_append] at hfrag
    simp only [Params.conditionTexts, List.forall_mem_append] at hcond
    rw [Params.slots] at h
    cases h with
    | query hpiece hreads _ hrest =>
      obtain ⟨js, hbinds, hreads'⟩ := Select.reads strict select hfrag.1 hcond.1 hpiece
      cases hreads.resolved.symm.trans hreads'.resolved
      exact .query hbinds (Params.binds_of_filled strict rest hfrag.2 hcond.2 hrest)

end

/-! ## Statements made of a select -/

/-- The clauses without values do not matter for what a select binds. -/
theorem Select.Binds.of_clauses {table : Value} {joins : Joins} {filter having : Filter}
    {clauses clauses' : Clauses} {p : Int} {is : List Int} {as : List Value} :
    (Select.mk table joins filter having clauses).Binds p is as →
      (Select.mk table joins filter having clauses').Binds p is as
  | .mk hj hjoins hf hfilter hh => .mk hj hjoins hf hfilter hh

/-- A select that differs in the clauses without values from another one. -/
theorem Select.reads_of_clauses {strict : Bool} {table : Value} {joins : Joins}
    {filter having : Filter} {clauses clauses' : Clauses}
    (hfrag : ∀ t ∈ (Select.mk table joins filter having clauses).fragments, Plain t)
    (hcond : ∀ t ∈ (Select.mk table joins filter having clauses).conditionTexts,
      Balanced t.toList)
    (hclauses : ∀ t ∈ clauses'.fragments, Plain t) {p : Int} {piece : Piece}
    (h : (Select.mk table joins filter having clauses').compile strict p = .ok piece) :
    ∃ is, (Select.mk table joins filter having clauses).Binds p is piece.arguments ∧
      Reads p piece.sql is := by
  simp only [Select.fragments, List.forall_mem_cons, List.forall_mem_append] at hfrag
  obtain ⟨htable, hparts, _⟩ := hfrag
  have hfrag' : ∀ t ∈ (Select.mk table joins filter having clauses').fragments, Plain t := by
    simp only [Select.fragments, List.forall_mem_cons, List.forall_mem_append]
    exact ⟨htable, hparts, hclauses⟩
  obtain ⟨is, hbinds, hreads⟩ := Select.reads strict _ hfrag' hcond h
  exact ⟨is, hbinds.of_clauses, hreads⟩

theorem Select.fragments_clauses {table : Value} {joins : Joins} {filter having : Filter}
    {clauses : Clauses} {P : String → Prop}
    (h : ∀ t ∈ (Select.mk table joins filter having clauses).fragments, P t) :
    ∀ t ∈ clauses.fragments, P t := by
  simp only [Select.fragments, List.forall_mem_cons, List.forall_mem_append] at h
  exact h.2.2

/-- A limit is no text. -/
theorem Select.reads_withLimit {strict : Bool} {select : Select}
    (hfrag : ∀ t ∈ select.fragments, Plain t)
    (hcond : ∀ t ∈ select.conditionTexts, Balanced t.toList) {limit : Value} {p : Int}
    {piece : Piece} (h : (select.withLimit limit).compile strict p = .ok piece) :
    ∃ is, select.Binds p is piece.arguments ∧ Reads p piece.sql is := by
  cases select with
  | mk table joins filter having clauses =>
    have hclauses : ∀ t ∈ { clauses with limit := limit }.fragments, Plain t :=
      Select.fragments_clauses hfrag
    exact Select.reads_of_clauses hfrag hcond hclauses h

/-- The column that counts rows is plain. -/
theorem Select.reads_counting {strict : Bool} {select : Select}
    (hfrag : ∀ t ∈ select.fragments, Plain t)
    (hcond : ∀ t ∈ select.conditionTexts, Balanced t.toList) {p : Int} {piece : Piece}
    (h : select.counting.compile strict p = .ok piece) :
    ∃ is, select.Binds p is piece.arguments ∧ Reads p piece.sql is := by
  cases select with
  | mk table joins filter having clauses =>
    refine Select.reads_of_clauses hfrag hcond (fun t ht => ?_) h
    have hclauses := Select.fragments_clauses hfrag
    simp only [Clauses.fragments, List.mem_append] at ht hclauses
    rcases ht with (ht | ht) | ht
    · rw [List.mem_singleton.1 ht]
      exact plain_of_not_mem (by decide) (by decide)
    · cases ht
    · exact hclauses t (.inr ht)

/-- A statement made of a select: of one row, of all of its rows, or of their number. -/
inductive Statement.OfSelect (strict : Bool) (select : Select) (s : Statement) : Prop where
  | one {v record : Value} :
    RecordKind.coerce .selectOne v = .ok record → Select.ofValue record = select →
    Statement.selectOne strict v = .ok s → OfSelect strict select s
  | all {v record : Value} :
    Statement.selectRecord v = .ok record → Select.ofValue record = select →
    Statement.selectAll strict v = .ok s → OfSelect strict select s
  | count {v record : Value} :
    Statement.selectRecord v = .ok record → Select.ofValue record = select →
    Statement.count strict v = .ok s → OfSelect strict select s

/-- A text after `p` values that reaches exactly the values that the select binds. -/
structure Select.Numbered (select : Select) (p : Int) (sql : String) (arguments : List Value) :
    Prop where
  reaches : highestIndex sql p = .ok (p + arguments.length)
  binds : ∃ is, resolve sql p = .ok is ∧ select.Binds p is arguments

theorem Select.numbered_of_reads {select : Select} {p : Int} {piece : Piece}
    (h : ∃ is, select.Binds p is piece.arguments ∧ Reads p piece.sql is) :
    select.Numbered p piece.sql piece.arguments := by
  obtain ⟨is, hbinds, hreads⟩ := h
  refine ⟨?_, is, hreads.resolved, hbinds⟩
  rw [hreads.highestIndex, hbinds.highest]

/-- The text of a select, and of every statement that is made of it, reaches exactly as many
values as the select binds, and no clause reaches a value that a later clause binds. -/
theorem select_reaches_arguments {strict : Bool} {select : Select}
    (hquotes : ∀ t ∈ select.fragments ++ select.conditionTexts, Balanced t.toList)
    (hmarks : ∀ t ∈ select.fragments, scan t = .ok []) :
    (∀ p piece, select.compile strict p = .ok piece →
      select.Numbered p piece.sql piece.arguments) ∧
    ∀ s, Statement.OfSelect strict select s →
      ∃ sql, s.query = .text sql ∧ select.Numbered 0 sql s.arguments := by
  rw [List.forall_mem_append] at hquotes
  have hfrag : ∀ t ∈ select.fragments, Plain t := fun t ht => ⟨hquotes.1 t ht, hmarks t ht⟩
  have hcond := hquotes.2
  refine ⟨fun p piece h => Select.numbered_of_reads (Select.reads strict select hfrag hcond h),
    fun s hs => ?_⟩
  cases hs with
  | one hrecord hselect h =>
    rw [Statement.selectOne, hrecord, ok_bind, hselect, bind_eq_ok] at h
    obtain ⟨piece, hpiece, h⟩ := h
    cases h
    exact ⟨piece.sql, rfl, Select.numbered_of_reads (Select.reads_withLimit hfrag hcond hpiece)⟩
  | all hrecord hselect h =>
    rw [Statement.selectAll, hrecord, ok_bind, hselect, bind_eq_ok] at h
    obtain ⟨piece, hpiece, h⟩ := h
    cases h
    exact ⟨piece.sql, rfl, Select.numbered_of_reads (Select.reads strict select hfrag hcond hpiece)⟩
  | count hrecord hselect h =>
    rw [Statement.count, hrecord, ok_bind, hselect, bind_eq_ok] at h
    obtain ⟨piece, hpiece, h⟩ := h
    cases h
    exact ⟨piece.sql, rfl, Select.numbered_of_reads (Select.reads_counting hfrag hcond hpiece)⟩

/-- A select of all rows that satisfy one condition. -/
def plainSelect (table condition : String) (param : Value) : Value :=
  .record .selectAll (RecordKind.fill .selectAll [("table_name", .text table),
    ("where", .map [(.text "conditions", .text condition), (.text "params", .list [param])])])

/-- A select that joins one select and has another one among its values. -/
def nestedSelect : Value :=
  .record .selectAll (RecordKind.fill .selectAll [("table_name", .text "a"),
    ("join", .map [(.text "table", plainSelect "b" "x = ? AND note <> 'why?'" (.int 1)),
      (.text "alias", .text "s")]),
    ("where", .map [(.text "conditions", .list [.text "n = ?", .text "id IN ?"]),
      (.text "params", .list [.int 2, plainSelect "c" "z = ?" (.int 3)])]),
    ("having", .map [(.text "conditions", .text "max(n) > ?5 OR n = ?4"),
      (.text "params", .list [.int 4, .int 5])])])

theorem select_reaches_arguments_nested :
    ∃ s sql, Statement.selectAll false nestedSelect = .ok s ∧ s.query = .text sql ∧
      s.arguments.length = 5 ∧ highestIndex sql 0 = .ok 5 := by
  have hquotes : ∀ t ∈ (Select.ofValue nestedSelect).fragments
      ++ (Select.ofValue nestedSelect).conditionTexts, Balanced t.toList := by
    decide
  have hmarks : ∀ t ∈ (Select.ofValue nestedSelect).fragments, marks (lex t.toList) = [] := by
    decide
  have hcompiled : (Statement.selectAll false nestedSelect).toOption.map (·.arguments.length)
      = some 5 := rfl
  cases hs : Statement.selectAll false nestedSelect with
  | error e =>
    rw [hs] at hcompiled
    cases hcompiled
  | ok s =>
    rw [hs] at hcompiled
    have hlength : s.arguments.length = 5 := Option.some.inj hcompiled
    obtain ⟨sql, hsql, hn⟩ := (select_reaches_arguments hquotes
      fun t ht => scan_eq_nil_iff.2 (hmarks t ht)).2 s (.all rfl rfl hs)
    refine ⟨s, sql, rfl, hsql, hlength, ?_⟩
    rw [hn.reaches, hlength]
    rfl

end Querywright
