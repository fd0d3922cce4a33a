/-
  The values that a written select binds, whatever its conditions and fragments are.

  * `Select.flatten` lists the values of a select in declared order: those of its joins, of WHERE
    and of HAVING, with the values of a subquery in the subquery's place.
  * `Select.Faithful`: every filter holds the values of its own condition set. What is read from a
    record is faithful (`Select.faithful_ofValue`).
  * `Filter.Gives`: the values that a filter takes from its slots. However its conditions are
    written, it takes all of them, in order (`Filter.inlineQueries_gives`).
  * `Select.compile_flatten`: a faithful select that is written binds its flattened values.
-/
import Querywright.Proofs.Select.Fragments

namespace Querywright

/-! ## Values in declared order -/

mutual

/-- The values of a select: those of its joins, then of WHERE, then of HAVING. -/
def Select.flatten : Select → List Value
  | .mk _ joins filter having _ => joins.flatten ++ filter.flatten ++ having.flatten

/-- The values of the selects that are joined. -/
def Joins.flatten : Joins → List Value
  | .invalid _ => []
  | .nil => []
  | .table _ rest => rest.flatten
  | .query _ select rest => select.flatten ++ rest.flatten

/-- The values of a filter. -/
def Filter.flatten : Filter → List Value
  | .invalid _ => []
  | .absent => []
  | .given _ params => params.flatten

/-- Values, with those of a subquery in its place. -/
def Params.flatten : Params → List Value
  | .nil => []
  | .value v rest => v :: rest.flatten
  | .query select rest => select.flatten ++ rest.flatten

end

/-! ## Filters that hold their own values -/

/-- Each item stands among the values in its place, as itself or as a subquery. -/
def Params.StandFor : Params → List Value → Prop
  | .nil, [] => True
  | .value v rest, item :: items => v = item ∧ rest.StandFor items
  | .query _ rest, _ :: items => rest.StandFor items
  | _, _ => False

theorem Params.StandFor.flatten {params : Params} {items : List Value}
    (h : params.StandFor items) (hq : params.hasQuery = false) : params.flatten = items := by
  induction items generalizing params with
  | nil =>
    cases params with
    | nil => rw [Params.flatten]
    | value v rest => cases h
    | query select rest => cases h
  | cons item items ih =>
    cases params with
    | nil => cases h
    | value v rest =>
      obtain ⟨rfl, hrest⟩ := h
      rw [Params.flatten, ih hrest hq]
    | query select rest => cases hq

/-- Where there is no item there is no value. -/
theorem Params.StandFor.flatten_nil {params : Params} (h : params.StandFor []) :
    params.flatten = [] := by
  cases params with
  | nil => rw [Params.flatten]
  | value v rest => cases h
  | query select rest => cases h

mutual

/-- Every filter of the select, at every depth, holds the values of its condition set. -/
def Select.Faithful : Select → Prop
  | .mk _ joins filter having _ => joins.Faithful ∧ filter.Faithful ∧ having.Faithful

/-- The same for the selects that are joined. -/
def Joins.Faithful : Joins → Prop
  | .invalid _ => True
  | .nil => True
  | .table _ rest => rest.Faithful
  | .query _ select rest => select.Faithful ∧ rest.Faithful

/-- The same for a filter. -/
def Filter.Faithful : Filter → Prop
  | .invalid _ => True
  | .absent => True
  | .given source params => params.StandFor (source.params.items?.getD []) ∧ params.Faithful

/-- The same for the subqueries among values. -/
def Params.Faithful : Params → Prop
  | .nil => True
  | .value _ rest => rest.Faithful
  | .query select rest => select.Faithful ∧ rest.Faithful

end

namespace Select

variable {read : Value → Select} (hread : ∀ v, (read v).Faithful)

include hread

theorem readParams_faithful (items : List Value) :
    (readParams read items).StandFor items ∧ (readParams read items).Faithful := by
  induction items with
  | nil => exact ⟨trivial, trivial⟩
  | cons v rest ih =>
    rw [readParams_cons]
    cases v.subquery? with
    | none => exact ⟨⟨rfl, ih.1⟩, ih.2⟩
    | some s => exact ⟨ih.1, hread s, ih.2⟩

theorem readFilter_faithful (v : Value) : (readFilter read v).Faithful := by
  unfold readFilter
  split
  · trivial
  · trivial
  · exact readParams_faithful hread _

theorem readJoins_faithful (joins : List Join) : (readJoins read joins).Faithful := by
  induction joins with
  | nil => trivial
  | cons j rest ih =>
    rw [readJoins]
    split
    · exact ⟨hread j.table, ih⟩
    · exact ih

theorem ofFields_faithful (kind : RecordKind) (fields : List Value) :
    (ofFields read kind fields).Faithful := by
  refine ⟨?_, readFilter_faithful hread _, readFilter_faithful hread _⟩
  split
  · trivial
  · exact readJoins_faithful hread _

end Select

theorem Select.faithful_ofRecord (levels : Nat) (v : Value) : (ofRecord levels v).Faithful := by
  have hblank : blank.Faithful := ⟨trivial, trivial, trivial⟩
  induction levels generalizing v with
  | zero => exact hblank
  | succ levels ih =>
    cases v with
    | record kind fields => exact ofFields_faithful ih kind fields
    | _ => exact hblank

theorem Select.faithful_ofValue (v : Value) : (ofValue v).Faithful :=
  faithful_ofRecord v.depth v

/-! ## What a filter takes from its slots -/

namespace Filter

/-- The values of slots in order: a value itself, and for a subquery those that it binds where it
is written. -/
inductive Gives : List Slot → List Value → Prop where
  | nil : Gives [] []
  | value {v : Value} {slots : List Slot} {as : List Value} (h : Gives slots as) :
    Gives (.inl v :: slots) (v :: as)
  | query {write : Int → Except Fault Piece} {p : Int} {piece : Piece} {slots : List Slot}
    {as : List Value} (hpiece : write p = .ok piece) (h : Gives slots as) :
    Gives (.inr write :: slots) (piece.arguments ++ as)

theorem gives_of_pieces {p : Int} {slots : List Slot} {pieces : List Piece}
    (h : piecesFrom p slots = .ok pieces) : Gives slots (argumentsOf pieces) := by
  induction slots generalizing p pieces with
  | nil =>
    cases h
    exact .nil
  | cons slot rest ih =>
    obtain ⟨piece, more, hpiece, hmore, rfl⟩ := piecesFrom_cons_eq_ok.1 h
    rw [argumentsOf, List.flatMap_cons]
    cases slot with
    | inl v =>
      cases hpiece
      exact .value (ih hmore)
    | inr write =>
      obtain ⟨sub, hsub, rfl⟩ := map_eq_ok.1 hpiece
      have hgives : Gives (.inr write :: rest) (sub.arguments ++ argumentsOf more) :=
        .query hsub (ih hmore)
      exact hgives

/-- A filter that is written takes what its slots give. -/
theorem inlineQueries_gives {clause : String} {p : Int} {conditions : List Value}
    {slots : List Slot} {written : List String} {bound : List Value}
    (h : inlineQueries clause p conditions slots = .ok (written, bound)) : Gives slots bound := by
  obtain ⟨_, pieces, -, -, hpieces, -, -, rfl⟩ := inlineQueries_eq_ok.1 h
  exact gives_of_pieces hpieces

end Filter

/-! ## A written select binds its values in declared order -/

/-- What does not count as given cannot be walked through, or holds nothing. -/
theorem Value.items?_of_truth {v : Value} (h : v.truth = false) : v.items?.getD [] = [] := by
  cases v with
  | text s =>
    have hs : s = "" := by simpa [Value.truth] using h
    subst hs
    rfl
  | list items | tuple items | set items | bytes bs | byteArray bs =>
    simp only [Value.truth, Bool.not_eq_false', List.isEmpty_iff] at h
    subst h
    rfl
  | map entries =>
    simp only [Value.truth, Bool.not_eq_false', List.isEmpty_iff] at h
    subst h
    rfl
  | keyword k => cases h
  | _ => rfl

/-- A filter without conditions has no values. -/
theorem Filter.compileEmpty_items {clause : String} {source : ConditionSet} {f : FilterPiece}
    (h : Filter.compileEmpty clause source = .ok f) : source.params.items?.getD [] = [] := by
  unfold Filter.compileEmpty at h
  split at h
  · split at h <;> cases h
  · rename_i htruth
    exact Value.items?_of_truth (Bool.eq_false_iff.2 htruth)

theorem Value.items_eq_ok {v : Value} {items : List Value} (h : v.items = .ok items) :
    v.items? = some items := by
  unfold Value.items at h
  split at h
  · rename_i found hfound
    cases h
    exact hfound
  · cases h

mutual

/-- A written select binds the values of its joins, of WHERE and of HAVING, one after another. -/
theorem Select.compile_flatten (strict : Bool) : ∀ (select : Select), select.Faithful →
    ∀ {p : Int} {piece : Piece}, select.compile strict p = .ok piece →
      piece.arguments = select.flatten
  | .mk table joins filter having clauses, hfaithful, p, piece, h => by
    obtain ⟨joined, fromJoins, f, g, hj, hf, hg, _, harguments⟩ := Select.compile_eq_ok h
    obtain ⟨hjoins, hfilter, hhaving⟩ := hfaithful
    rw [harguments, Select.flatten, Joins.compile_flatten strict joins hjoins hj,
      Filter.compile_flatten strict filter hfilter hf,
      Filter.compile_flatten strict having hhaving hg]

theorem Joins.compile_flatten (strict : Bool) : ∀ (joins : Joins), joins.Faithful →
    ∀ {p : Int} {texts : List String} {arguments : List Value},
      joins.compile strict p = .ok (texts, arguments) → arguments = joins.flatten
  | .invalid cause, _, p, texts, arguments, h => by
    rw [Joins.compile] at h
    cases h
  | .nil, _, p, texts, arguments, h => by
    rw [Joins.compile] at h
    cases h
    rw [Joins.flatten]
  | .table join rest, hfaithful, p, texts, arguments, h => by
    obtain ⟨others, hrest, rfl⟩ := Joins.compile_table_eq_ok h
    rw [Joins.flatten]
    exact Joins.compile_flatten strict rest hfaithful hrest
  | .query join select rest, hfaithful, p, texts, arguments, h => by
    obtain ⟨piece, others, more, hpiece, hrest, rfl, rfl⟩ := Joins.compile_query_eq_ok h
    rw [Joins.flatten, Select.compile_flatten strict select hfaithful.1 hpiece,
      Joins.compile_flatten strict rest hfaithful.2 hrest]

theorem Filter.compile_flatten (strict : Bool) : ∀ (filter : Filter), filter.Faithful →
    ∀ {clause : String} {p : Int} {f : FilterPiece}, filter.compile strict clause p = .ok f →
      f.arguments = filter.flatten
  | .invalid cause, _, clause, p, f, h => by
    rw [Filter.compile] at h
    cases h
  | .absent, _, clause, p, f, h => by
    rw [Filter.compile] at h
    cases h
    rw [Filter.flatten]
    rfl
  | .given source params, hfaithful, clause, p, f, h => by
    obtain ⟨hstand, hparams⟩ := hfaithful
    rw [Filter.flatten]
    rw [Filter.compile] at h
    split at h
    · rw [Filter.compileEmpty_items h] at hstand
      rw [Filter.compileEmpty_eq_ok h, hstand.flatten_nil]
    · obtain ⟨texts, _, _, hcases⟩ := Filter.compileGiven_eq_ok h
      rcases hcases with ⟨_, hitems, hquery⟩ | ⟨conditions, _, hinline, _⟩
      · rw [Value.items_eq_ok hitems, Option.getD_some] at hstand
        rw [hstand.flatten hquery]
      · exact Params.flatten_of_gives strict params hparams (Filter.inlineQueries_gives hinline)

theorem Params.flatten_of_gives (strict : Bool) : ∀ (params : Params), params.Faithful →
    ∀ {bound : List Value}, Filter.Gives (params.slots strict) bound → bound = params.flatten
  | .nil, _, bound, h => by
    rw [Params.slots] at h
    cases h
    rw [Params.flatten]
  | .value v rest, hfaithful, bound, h => by
    rw [Params.slots] at h
    cases h with
    | value hrest => rw [Params.flatten, Params.flatten_of_gives strict rest hfaithful hrest]
  | .query select rest, hfaithful, bound, h => by
    rw [Params.slots] at h
    cases h with
    | query hpiece hrest =>
      rw [Params.flatten, Select.compile_flatten strict select hfaithful.1 hpiece,
        Params.flatten_of_gives strict rest hfaithful.2 hrest]

end

/-- A limit is no value that is bound. -/
theorem Select.flatten_withLimit (select : Select) (limit : Value) :
    (select.withLimit limit).flatten = select.flatten ∧
      ((select.withLimit limit).Faithful ↔ select.Faithful) := by
  cases select with
  | mk table joins filter having clauses => exact ⟨rfl, Iff.rfl⟩

/-- Neither is anything that a count leaves out. -/
theorem Select.flatten_counting (select : Select) :
    select.counting.flatten = select.flatten ∧
      (select.counting.Faithful ↔ select.Faithful) := by
  cases select with
  | mk table joins filter having clauses => exact ⟨rfl, Iff.rfl⟩

end Querywright
