/-
  Selects that differ in their bounds, each written with a setting of its own.

  * `Select.Like B s s'`: the selects are the same at every depth, but for their limits and offsets,
    which `B` relates.
  * `TextLikeness T e`: `T` relates texts with the same placeholders and is kept by joining them;
    `e` is what is compared of a fault.
  * `Select.compile_like`: where related bounds are written alike (`BoundsAgree`), both selects are
    written alike and bind the same values, or fail alike. The step is one placeholder that a
    subquery takes (`Filter.writeMark_like`); filters, joins and selects follow it.
-/
import Querywright.Proofs.Clause.Texts
import Querywright.Proofs.Placeholder.Interchange

namespace Querywright

open Placeholder

/-! ## Outcomes under a view of faults -/

section

variable {α β : Type} {e : Fault → Fault} {R : α → α → Prop} {S : β → β → Prop}

/-- Both outcomes are related values, or faults of which `e` shows the same. -/
def Agree (e : Fault → Fault) (R : α → α → Prop) (r r' : Except Fault α) : Prop :=
  Matches R (r.mapError e) (r'.mapError e)

namespace Agree

theorem ok {x x' : α} (h : R x x') : Agree e R (.ok x) (.ok x') := Matches.ok h

theorem error {f f' : Fault} (h : e f = e f') : Agree e R (.error f) (.error f') := by
  show Matches R (.error (e f)) (.error (e f'))
  rw [h]
  exact Matches.error _

theorem refl (h : ∀ x, R x x) (r : Except Fault α) : Agree e R r r := Matches.refl h _

/-- What both outcomes are. -/
theorem outcomes {r r' : Except Fault α} (h : Agree e R r r') :
    (∃ f f', r = .error f ∧ r' = .error f' ∧ e f = e f') ∨
    ∃ x x', r = .ok x ∧ r' = .ok x' ∧ R x x' := by
  cases r with
  | error f =>
    cases r' with
    | error f' => exact .inl ⟨f, f', rfl, rfl, h.fault_eq⟩
    | ok x' => cases h
  | ok x =>
    cases r' with
    | error f' => cases h
    | ok x' =>
      obtain hx | _ := h
      exact .inr ⟨x, x', rfl, rfl, hx⟩

theorem bind {r r' : Except Fault α} {f f' : α → Except Fault β} (h : Agree e R r r')
    (hf : ∀ x x', R x x' → Agree e S (f x) (f' x')) : Agree e S (r >>= f) (r' >>= f') := by
  obtain ⟨f, f', rfl, rfl, hsame⟩ | ⟨x, x', rfl, rfl, hx⟩ := h.outcomes
  · exact error hsame
  · exact hf x x' hx

/-- After a step that is the same in both runs. -/
theorem bind_same {r : Except Fault α} {f f' : α → Except Fault β}
    (hf : ∀ x, Agree e S (f x) (f' x)) : Agree e S (r >>= f) (r >>= f') := by
  cases r with
  | error f => exact error rfl
  | ok x => exact hf x

/-- Where the whole of a fault is compared, equal outcomes are the same outcome. -/
theorem eq_of_id {r r' : Except Fault α} (h : Agree id R r r') (hR : ∀ x x', R x x' → x = x') :
    r = r' := by
  obtain ⟨f, f', rfl, rfl, hsame⟩ | ⟨x, x', rfl, rfl, hx⟩ := h.outcomes
  · exact congrArg Except.error hsame
  · exact congrArg Except.ok (hR x x' hx)

end Agree

end

/-! ## Likeness of texts -/

/-- Texts that hold the same placeholders, a likeness that is kept by joining texts, and under
which faults that quote them show the same. -/
structure TextLikeness (T : List Char → List Char → Prop) (e : Fault → Fault) : Prop where
  refl : ∀ s, T s s
  append : ∀ {a b c d}, T a b → T c d → T (a ++ c) (b ++ d)
  marks : ∀ {a b}, T a b → marks (lex a) = marks (lex b)
  fault : ∀ {a b : String} (clause : String) (expected received : Int), T a.toList b.toList →
    e (mismatch clause (some a) expected received) = e (mismatch clause (some b) expected received)

/-- The pieces bind the same values, and their texts are alike where a parenthesis follows. -/
structure Piece.Like (T : List Char → List Char → Prop) (p p' : Piece) : Prop where
  sql : T (p.sql.toList ++ [')']) (p'.sql.toList ++ [')'])
  arguments : p.arguments = p'.arguments

/-- The filters bind the same values, and their texts are alike. -/
structure FilterPiece.Like (T : List Char → List Char → Prop) (f f' : FilterPiece) : Prop where
  text : Option.Rel (fun s t : String => T s.toList t.toList) f.text f'.text
  arguments : f.arguments = f'.arguments

theorem FilterPiece.Like.isEmpty_eq {T : List Char → List Char → Prop} {f f' : FilterPiece}
    (h : f.Like T f') : f.isEmpty = f'.isEmpty := by
  obtain ⟨conditions, text, arguments⟩ := f
  obtain ⟨conditions', text', arguments'⟩ := f'
  obtain ⟨htext, -⟩ := h
  cases htext <;> rfl

section

variable {T : List Char → List Char → Prop} {e : Fault → Fault} (hT : TextLikeness T e)

include hT

theorem TextLikeness.appendString {a b c d : String} (h : T a.toList b.toList)
    (h' : T c.toList d.toList) : T (a ++ c).toList (b ++ d).toList := by
  rw [String.toList_append, String.toList_append]
  exact hT.append h h'

theorem TextLikeness.intercalate (sep : String) {texts texts' : List String}
    (h : List.Forall₂ (fun s t : String => T s.toList t.toList) texts texts') :
    T (sep.intercalate texts).toList (sep.intercalate texts').toList := by
  induction h with
  | nil => exact hT.refl _
  | cons hs hrest ih =>
    cases hrest with
    | nil =>
      rw [String.intercalate_singleton, String.intercalate_singleton]
      exact hs
    | cons _ _ =>
      rw [String.intercalate_cons_cons, String.intercalate_cons_cons]
      exact hT.appendString (hT.appendString hs (hT.refl _)) ih

theorem TextLikeness.clause {f f' : FilterPiece} (h : f.Like T f') (keyword : String) :
    T (f.clause keyword).toList (f'.clause keyword).toList := by
  obtain ⟨conditions, text, arguments⟩ := f
  obtain ⟨conditions', text', arguments'⟩ := f'
  obtain ⟨htext, -⟩ := h
  cases htext with
  | some hst => exact hT.appendString (hT.refl _) hst
  | none => exact hT.refl _

/-- A subquery in parentheses. -/
theorem TextLikeness.parens {p p' : Piece} (h : p.Like T p') :
    T ('(' :: p.sql.toList ++ [')']) ('(' :: p'.sql.toList ++ [')']) := by
  show T (['('] ++ (p.sql.toList ++ [')'])) (['('] ++ (p'.sql.toList ++ [')']))
  exact hT.append (hT.refl _) h.sql

theorem TextLikeness.render (j : Join) (t : Value) {p p' : Piece} (h : p.Like T p') :
    T (j.render (some p.sql)).toList (({ j with table := t } : Join).render (some p'.sql)).toList := by
  rw [Join.render_eq, Join.render_eq]
  refine hT.appendString (hT.appendString (hT.refl _) ?_) (hT.refl _)
  have hparens := hT.parens h
  dsimp only
  rw [String.toList_append, String.toList_append, String.toList_append, String.toList_append]
  exact hparens

theorem TextLikeness.renderAll (given : Bool) {texts texts' : List String}
    (h : List.Forall₂ (fun s t : String => T s.toList t.toList) texts texts') :
    T (Join.renderAll given texts).toList (Join.renderAll given texts').toList := by
  cases given with
  | true => exact hT.appendString (hT.refl _) (hT.intercalate " " h)
  | false => exact hT.refl _

/-! ## Filters -/

theorem TextLikeness.checkCount {a b : String} (h : T a.toList b.toList) (clause : String) (p : Int)
    (n : Nat) :
    Agree e Eq (Filter.checkCount clause a p n) (Filter.checkCount clause b p n) := by
  have hnumbers : numbers a.toList = numbers b.toList := by
    rw [numbers, numbers, hT.marks h]
  have hhighest : highestIndex a p = highestIndex b p := by
    rw [highestIndex, highestIndex, resolve, resolve, hnumbers]
  rw [Filter.checkCount, Filter.checkCount, hhighest]
  refine .bind_same fun highest => ?_
  dsimp only
  split
  · exact .ok rfl
  · exact .error (hT.fault clause _ _ h)

end

namespace Filter

/-- The same value, or subqueries that are written alike. -/
inductive Slot.Like (T : List Char → List Char → Prop) (e : Fault → Fault) : Slot → Slot → Prop where
  | value (v : Value) : Slot.Like T e (.inl v) (.inl v)
  | query {write write' : Int → Except Fault Piece}
      (h : ∀ p, Agree e (Piece.Like T) (write p) (write' p)) : Slot.Like T e (.inr write) (.inr write')

/-- Alike values are left, and the same ones are bound. -/
def StateLike (T : List Char → List Char → Prop) (e : Fault → Fault)
    (s s' : List Slot × List Value) : Prop :=
  List.Forall₂ (Slot.Like T e) s.1 s'.1 ∧ s.2 = s'.2

variable {T : List Char → List Char → Prop} {e : Fault → Fault} (hT : TextLikeness T e)
  {clause : String} {p : Int} {total : Nat}

include hT

theorem writeMark_like {condition : String} {s s' : List Slot × List Value} (h : StateLike T e s s')
    (digits : List Char) :
    Agree e (fun r r' => T r.1 r'.1 ∧ StateLike T e r.2 r'.2)
      (writeMark clause condition p total digits s)
      (writeMark clause condition p total digits s') := by
  obtain ⟨slots, bound⟩ := s
  obtain ⟨slots', bound'⟩ := s'
  obtain ⟨hslots, rfl⟩ : List.Forall₂ (Slot.Like T e) slots slots' ∧ bound = bound' := h
  unfold writeMark
  split
  · exact .error rfl
  · cases hslots with
    | nil => exact .error rfl
    | cons hslot hrest =>
      cases hslot with
      | value v => exact .ok ⟨hT.refl _, hrest, rfl⟩
      | query hwrite =>
        refine (hwrite _).bind fun piece piece' hpiece => .ok ⟨hT.parens hpiece, hrest, ?_⟩
        rw [hpiece.arguments]

theorem writeMarks_like {condition : String} (ls : List Lexeme) {s s' : List Slot × List Value}
    (h : StateLike T e s s') :
    Agree e (fun r r' => T r.1 r'.1 ∧ StateLike T e r.2 r'.2)
      (writeMarks (writeMark clause condition p total) ls s)
      (writeMarks (writeMark clause condition p total) ls s') := by
  induction ls generalizing s s' with
  | nil => exact .ok ⟨hT.refl _, h⟩
  | cons l rest ih =>
    cases l with
    | plain c =>
      rw [writeMarks, writeMarks]
      exact (ih h).bind fun r r' hr => .ok ⟨hT.append (hT.refl [c]) hr.1, hr.2⟩
    | mark digits =>
      rw [writeMarks, writeMarks]
      refine (writeMark_like hT h digits).bind fun r r' hr => ?_
      exact (ih hr.2).bind fun t t' ht => .ok ⟨hT.append hr.1 ht.1, ht.2⟩

theorem writeConditions_like (conditions : List Value) {s s' : List Slot × List Value}
    (h : StateLike T e s s') :
    Agree e (fun r r' => List.Forall₂ (fun s t : String => T s.toList t.toList) r.1 r'.1 ∧
        StateLike T e r.2 r'.2)
      (writeConditions clause p total conditions s)
      (writeConditions clause p total conditions s') := by
  induction conditions generalizing s s' with
  | nil => exact .ok ⟨.nil, h⟩
  | cons v rest ih =>
    rw [writeConditions, writeConditions]
    cases v.asText? with
    | none => exact .error rfl
    | some condition =>
      refine .bind_same fun _ => ?_
      refine (writeMarks_like hT _ h).bind fun r r' hr => ?_
      refine (ih hr.2).bind fun t t' ht => .ok ⟨.cons ?_ ht.1, ht.2⟩
      rw [String.toList_ofList, String.toList_ofList]
      exact hr.1

theorem inlineQueries_like {slots slots' : List Slot} (h : List.Forall₂ (Slot.Like T e) slots slots')
    (conditions : List Value) :
    Agree e (fun r r' => List.Forall₂ (fun s t : String => T s.toList t.toList) r.1 r'.1 ∧
        r.2 = r'.2)
      (inlineQueries clause p conditions slots) (inlineQueries clause p conditions slots') := by
  have hstart : StateLike T e (slots, []) (slots', []) := ⟨h, rfl⟩
  rw [inlineQueries, inlineQueries, h.length_eq]
  refine (writeConditions_like hT conditions hstart).bind fun r r' hr => ?_
  obtain ⟨texts, left, bound⟩ := r
  obtain ⟨texts', left', bound'⟩ := r'
  obtain ⟨htexts, hleft, rfl⟩ :
    List.Forall₂ _ texts texts' ∧ List.Forall₂ (Slot.Like T e) left left' ∧ bound = bound' := hr
  cases hleft with
  | nil => exact .ok ⟨htexts, rfl⟩
  | cons _ hrest =>
    refine .bind_same fun query => .error ?_
    rw [List.length_cons, List.length_cons, hrest.length_eq]

/-- The conditions are the same, and the values are as many, and the same where none is a
subquery. -/
structure SourceLike (hasQuery : Bool) (c c' : ConditionSet) : Prop where
  conditions : c.conditions = c'.conditions
  truth : c.params.truth = c'.params.truth
  length : c.params.items?.map List.length = c'.params.items?.map List.length
  plain : hasQuery = false → c.params.items? = c'.params.items?

omit hT in
theorem compileEmpty_like {hasQuery : Bool} {c c' : ConditionSet} (h : SourceLike hasQuery c c') :
    Agree e (FilterPiece.Like T) (compileEmpty clause c) (compileEmpty clause c') := by
  have hlength := h.length
  rw [compileEmpty, compileEmpty, h.truth]
  split
  · cases hi : c.params.items? with
    | none =>
      rw [hi] at hlength
      rw [Option.map_eq_none_iff.1 hlength.symm]
      exact .error rfl
    | some items =>
      rw [hi] at hlength
      obtain ⟨items', hi', hsame⟩ := Option.map_eq_some_iff.1 hlength.symm
      rw [hi']
      dsimp only
      rw [hsame]
      exact .error rfl
  · exact .ok ⟨.none, rfl⟩

theorem compileGiven_like {hasQuery : Bool} {c c' : ConditionSet} (h : SourceLike hasQuery c c')
    {slots slots' : List Slot} (hslots : List.Forall₂ (Slot.Like T e) slots slots') :
    Agree e (FilterPiece.Like T) (compileGiven clause p c hasQuery slots)
      (compileGiven clause p c' hasQuery slots') := by
  have hitems : Agree e (fun items items' => hasQuery = false → items = items')
      c.params.items c'.params.items := by
    have hlength := h.length
    have hplain := h.plain
    rw [Value.items, Value.items]
    cases hi : c.params.items? with
    | none =>
      rw [hi] at hlength
      rw [Option.map_eq_none_iff.1 hlength.symm]
      exact .error rfl
    | some items =>
      rw [hi] at hlength hplain
      obtain ⟨items', hi', -⟩ := Option.map_eq_some_iff.1 hlength.symm
      rw [hi'] at hplain ⊢
      exact .ok fun hq => Option.some.inj (hplain hq)
  rw [compileGiven, compileGiven, ConditionSet.texts, ConditionSet.texts, h.conditions]
  refine hitems.bind fun items items' hsame => ?_
  cases hasQuery with
  | true =>
    refine .bind_same fun conditions => ?_
    refine (inlineQueries_like hT hslots conditions).bind fun r r' hr => ?_
    obtain ⟨texts, bound⟩ := r
    obtain ⟨texts', bound'⟩ := r'
    obtain ⟨htexts, rfl⟩ : List.Forall₂ _ texts texts' ∧ bound = bound' := hr
    have hjoined := hT.intercalate " AND " htexts
    exact (hT.checkCount hjoined clause p _).bind fun _ _ _ => .ok ⟨.some hjoined, rfl⟩
  | false =>
    obtain rfl := hsame rfl
    exact .bind_same fun texts => .bind_same fun _ => .ok ⟨.some (hT.refl _), rfl⟩

end Filter

/-! ## Selects that differ in bounds -/

mutual

/-- The selects are the same at every depth, but for bounds that are related. -/
inductive Select.Like (B : Value → Value → Prop) : Select → Select → Prop where
  | mk {table fields groupBy orderBy limit limit' offset offset' : Value} {joins joins' : Joins}
      {filter filter' having having' : Filter} (hjoins : Joins.Like B joins joins')
      (hfilter : Filter.Like B filter filter') (hhaving : Filter.Like B having having')
      (hlimit : B limit limit') (hoffset : B offset offset') :
      Select.Like B (.mk table joins filter having ⟨fields, groupBy, orderBy, limit, offset⟩)
        (.mk table joins' filter' having' ⟨fields, groupBy, orderBy, limit', offset'⟩)

/-- The same of joins. -/
inductive Joins.Like (B : Value → Value → Prop) : Joins → Joins → Prop where
  | invalid (cause : Fault) : Joins.Like B (.invalid cause) (.invalid cause)
  | nil : Joins.Like B .nil .nil
  | table (join : Join) {rest rest' : Joins} (hrest : Joins.Like B rest rest') :
      Joins.Like B (.table join rest) (.table join rest')
  | query (join : Join) (t : Value) {select select' : Select} {rest rest' : Joins}
      (hselect : Select.Like B select select') (hrest : Joins.Like B rest rest') :
      Joins.Like B (.query join select rest) (.query { join with table := t } select' rest')

/-- The same of filters. -/
inductive Filter.Like (B : Value → Value → Prop) : Filter → Filter → Prop where
  | invalid (cause : Fault) : Filter.Like B (.invalid cause) (.invalid cause)
  | absent : Filter.Like B .absent .absent
  | given {source source' : ConditionSet} {params params' : Params}
      (hsource : Filter.SourceLike params.hasQuery source source')
      (hparams : Params.Like B params params') :
      Filter.Like B (.given source params) (.given source' params')

/-- The same of the values of a filter. -/
inductive Params.Like (B : Value → Value → Prop) : Params → Params → Prop where
  | nil : Params.Like B .nil .nil
  | value (v : Value) {rest rest' : Params} (hrest : Params.Like B rest rest') :
      Params.Like B (.value v rest) (.value v rest')
  | query {select select' : Select} {rest rest' : Params} (hselect : Select.Like B select select')
      (hrest : Params.Like B rest rest') :
      Params.Like B (.query select rest) (.query select' rest')

end

variable {B : Value → Value → Prop}

theorem Joins.Like.isGiven_eq {joins joins' : Joins} (h : Joins.Like B joins joins') :
    joins.isGiven = joins'.isGiven := by
  cases h <;> rfl

theorem Params.Like.hasQuery_eq : ∀ {params params' : Params}, Params.Like B params params' →
    params.hasQuery = params'.hasQuery
  | .nil, _, h => by
    cases h
    rfl
  | .value v rest, _, h => by
    cases h with
    | value v hrest => exact hrest.hasQuery_eq
  | .query select rest, _, h => by
    cases h
    rfl

namespace Select.Like

variable {s s' : Select}

theorem withLimit (h : Select.Like B s s') {limit limit' : Value} (hlimit : B limit limit') :
    Select.Like B (s.withLimit limit) (s'.withLimit limit') := by
  obtain ⟨hjoins, hfilter, hhaving, -, hoffset⟩ := h
  exact .mk hjoins hfilter hhaving hlimit hoffset

theorem counting (h : Select.Like B s s') (hlimit : B (.int 1) (.int 1)) (hoffset : B .null .null) :
    Select.Like B s.counting s'.counting := by
  obtain ⟨hjoins, hfilter, hhaving, -, -⟩ := h
  exact .mk hjoins hfilter hhaving hlimit hoffset

end Select.Like

/-! ## The bounds of a select -/

mutual

/-- The limits and offsets of a select at every depth. -/
def Select.bounds : Select → List Value
  | .mk _ joins filter having clauses =>
    joins.bounds ++ filter.bounds ++ having.bounds ++ [clauses.limit, clauses.offset]

/-- The limits and offsets of the selects that are joined. -/
def Joins.bounds : Joins → List Value
  | .invalid _ => []
  | .nil => []
  | .table _ rest => rest.bounds
  | .query _ select rest => select.bounds ++ rest.bounds

/-- The limits and offsets of the subqueries of a filter. -/
def Filter.bounds : Filter → List Value
  | .invalid _ => []
  | .absent => []
  | .given _ params => params.bounds

/-- The limits and offsets of the subqueries among the values of a filter. -/
def Params.bounds : Params → List Value
  | .nil => []
  | .value _ rest => rest.bounds
  | .query select rest => select.bounds ++ rest.bounds

end

mutual

/-- A select is like itself where its bounds are related to themselves. -/
theorem Select.like_self : ∀ (s : Select), (∀ b ∈ s.bounds, B b b) → Select.Like B s s
  | .mk table joins filter having clauses, h => by
    simp only [Select.bounds, List.forall_mem_append, List.forall_mem_cons] at h
    obtain ⟨⟨⟨hjoins, hfilter⟩, hhaving⟩, hlimit, hoffset, -⟩ := h
    exact .mk (Joins.like_self joins hjoins) (Filter.like_self filter hfilter)
      (Filter.like_self having hhaving) hlimit hoffset

theorem Joins.like_self : ∀ (joins : Joins), (∀ b ∈ joins.bounds, B b b) → Joins.Like B joins joins
  | .invalid cause, _ => .invalid cause
  | .nil, _ => .nil
  | .table join rest, h => by
    rw [Joins.bounds] at h
    exact .table join (Joins.like_self rest h)
  | .query join select rest, h => by
    rw [Joins.bounds, List.forall_mem_append] at h
    exact .query join join.table (Select.like_self select h.1) (Joins.like_self rest h.2)

theorem Filter.like_self : ∀ (filter : Filter), (∀ b ∈ filter.bounds, B b b) →
    Filter.Like B filter filter
  | .invalid cause, _ => .invalid cause
  | .absent, _ => .absent
  | .given source params, h => by
    rw [Filter.bounds] at h
    exact .given ⟨rfl, rfl, rfl, fun _ => rfl⟩ (Params.like_self params h)

theorem Params.like_self : ∀ (params : Params), (∀ b ∈ params.bounds, B b b) →
    Params.Like B params params
  | .nil, _ => .nil
  | .value v rest, h => by
    rw [Params.bounds] at h
    exact .value v (Params.like_self rest h)
  | .query select rest, h => by
    rw [Params.bounds, List.forall_mem_append] at h
    exact .query (Select.like_self select h.1) (Params.like_self rest h.2)

end

/-! ## Selects written alike -/

/-- The bounds may stand before texts that are alike: they begin with no digit, nor do they end in
what the texts could continue. -/
structure BoundLike (T : List Char → List Char → Prop) (l l' : String) : Prop where
  led : Led l
  led' : Led l'
  before : ∀ {r r'}, Headed r → Headed r' → T r r' → T (l.toList ++ r) (l'.toList ++ r')

/-- Related bounds are written alike with the two settings. -/
def BoundsAgree (B : Value → Value → Prop) (T : List Char → List Char → Prop) (e : Fault → Fault)
    (strict strict' : Bool) : Prop :=
  ∀ ⦃b b'⦄, B b b' → ∀ lead ∈ [" LIMIT ", " OFFSET "],
    Agree e (BoundLike T) (Clause.bound lead strict b) (Clause.bound lead strict' b')

theorem headed_of_led {l : String} (h : Led l) : Headed (l.toList ++ [')']) := by
  unfold Led at h
  cases hl : l.toList with
  | nil => exact ⟨')', [], rfl, by decide⟩
  | cons c rest =>
    rw [hl] at h
    exact ⟨c, rest ++ [')'], rfl, h c rfl⟩

section

variable {T : List Char → List Char → Prop} {e : Fault → Fault} (hT : TextLikeness T e)

include hT

/-- Texts that end in bounds are alike where a parenthesis follows. -/
theorem TextLikeness.bounded {a a' l l' o o' : String} (h : T a.toList a'.toList)
    (hl : BoundLike T l l') (ho : BoundLike T o o') :
    T ((a ++ l ++ o).toList ++ [')']) ((a' ++ l' ++ o').toList ++ [')']) := by
  have hclosing : Headed [')'] := ⟨')', [], rfl, by decide⟩
  have hend := hl.before (headed_of_led ho.led) (headed_of_led ho.led')
    (ho.before hclosing hclosing (hT.refl [')']))
  have hwhole := hT.append h hend
  simp only [String.toList_append, List.append_assoc] at hwhole ⊢
  exact hwhole

variable {strict strict' : Bool} (hB : BoundsAgree B T e strict strict')

include hB

theorem Clauses.render_like {fields groupBy orderBy limit limit' offset offset' : Value}
    (hlimit : B limit limit') (hoffset : B offset offset') (table : String) {joins joins' : String}
    {f f' g g' : FilterPiece} (hjoins : T joins.toList joins'.toList) (hf : f.Like T f')
    (hg : g.Like T g') :
    Agree e (fun s s' : String => T (s.toList ++ [')']) (s'.toList ++ [')']))
      (render strict table joins f g ⟨fields, groupBy, orderBy, limit, offset⟩)
      (render strict' table joins' f' g' ⟨fields, groupBy, orderBy, limit', offset'⟩) := by
  rw [render, render]
  refine .bind_same fun fields => .bind_same fun groupBy => .bind_same fun orderBy => ?_
  refine (hB hlimit " LIMIT " (by decide)).bind fun l l' hl => ?_
  refine (hB hoffset " OFFSET " (by decide)).bind fun o o' ho => .ok ?_
  have hopening : T ("SELECT " ++ fields ++ " FROM " ++ table ++ joins).toList
      ("SELECT " ++ fields ++ " FROM " ++ table ++ joins').toList :=
    hT.appendString (hT.refl _) hjoins
  have hwhere := hT.appendString (hT.appendString hopening (hT.clause hf "WHERE"))
    (hT.refl groupBy.toList)
  have hhaving := hT.appendString (hT.appendString hwhere (hT.clause hg "HAVING"))
    (hT.refl orderBy.toList)
  exact hT.bounded hhaving hl ho

-- some of these use the hypotheses only where they use each other
set_option linter.unusedSectionVars false in
mutual

/-- Selects that differ in related bounds are written alike, after any number of values. -/
theorem Select.compile_like : ∀ {s s' : Select}, Select.Like B s s' → ∀ (p : Int),
    Agree e (Piece.Like T) (s.compile strict p) (s'.compile strict' p)
  | .mk table joins filter having clauses, _, h, p => by
    cases h with
    | mk hjoins hfilter hhaving hlimit hoffset =>
    rw [Select.compile, Select.compile, hjoins.isGiven_eq]
    refine .bind_same fun table => ?_
    refine (Joins.compile_like hjoins p).bind fun r r' hr => ?_
    obtain ⟨texts, bound⟩ := r
    obtain ⟨texts', bound'⟩ := r'
    obtain ⟨htexts, rfl⟩ : List.Forall₂ _ texts texts' ∧ bound = bound' := hr
    refine (Filter.compile_like hfilter "WHERE" _).bind fun f f' hf => ?_
    rw [hf.arguments]
    refine (Filter.compile_like hhaving "HAVING" _).bind fun g g' hg => ?_
    refine (Clauses.render_like hT hB hlimit hoffset table (hT.renderAll _ htexts) hf hg).bind
      fun sql sql' hsql => .ok ⟨hsql, ?_⟩
    rw [hg.arguments]

theorem Joins.compile_like : ∀ {joins joins' : Joins}, Joins.Like B joins joins' → ∀ (p : Int),
    Agree e (fun r r' => List.Forall₂ (fun s t : String => T s.toList t.toList) r.1 r'.1 ∧
        r.2 = r'.2)
      (joins.compile strict p) (joins'.compile strict' p)
  | .invalid cause, _, h, p => by
    cases h
    rw [Joins.compile, Joins.compile]
    exact .error rfl
  | .nil, _, h, p => by
    cases h
    rw [Joins.compile, Joins.compile]
    exact .ok ⟨.nil, rfl⟩
  | .table join rest, _, h, p => by
    cases h with
    | table _ hrest =>
    rw [Joins.compile, Joins.compile]
    exact (Joins.compile_like hrest p).bind fun r r' hr => .ok ⟨.cons (hT.refl _) hr.1, hr.2⟩
  | .query join select rest, _, h, p => by
    cases h with
    | query _ t hselect hrest =>
    rw [Joins.compile, Joins.compile]
    refine (Select.compile_like hselect p).bind fun piece piece' hpiece => ?_
    rw [hpiece.arguments]
    refine (Joins.compile_like hrest _).bind fun r r' hr =>
      .ok ⟨.cons (hT.render join t hpiece) hr.1, ?_⟩
    rw [hr.2]

theorem Filter.compile_like : ∀ {filter filter' : Filter}, Filter.Like B filter filter' →
    ∀ (clause : String) (p : Int),
      Agree e (FilterPiece.Like T) (filter.compile strict clause p)
        (filter'.compile strict' clause p)
  | .invalid cause, _, h, clause, p => by
    cases h
    rw [Filter.compile, Filter.compile]
    exact .error rfl
  | .absent, _, h, clause, p => by
    cases h
    rw [Filter.compile, Filter.compile]
    exact .ok ⟨.none, rfl⟩
  | .given source params, _, h, clause, p => by
    cases h with
    | given hsource hparams =>
    rw [Filter.compile, Filter.compile, ← hparams.hasQuery_eq, ConditionSet.isEmpty,
      ConditionSet.isEmpty, hsource.conditions]
    split
    · exact Filter.compileEmpty_like hsource
    · exact Filter.compileGiven_like hT hsource (Params.slots_like hparams)

theorem Params.slots_like : ∀ {params params' : Params}, Params.Like B params params' →
    List.Forall₂ (Filter.Slot.Like T e) (params.slots strict) (params'.slots strict')
  | .nil, _, h => by
    cases h
    rw [Params.slots, Params.slots]
    exact .nil
  | .value v rest, _, h => by
    cases h with
    | value _ hrest =>
    rw [Params.slots, Params.slots]
    exact .cons (.value v) (Params.slots_like hrest)
  | .query select rest, _, h => by
    cases h with
    | query hselect hrest =>
    rw [Params.slots, Params.slots]
    exact .cons (.query fun p => Select.compile_like hselect p) (Params.slots_like hrest)

end

end

end Querywright
