/-
  Conditions with subqueries written into them.

  * `Filter.piecesFrom`: what is written for the values of a filter one after another. A value keeps
    its placeholder, a subquery is written in parentheses behind the values before it.
  * `Filter.Takes`: what a step of the writing uses of the values, and what it binds.
    `Filter.writeMarks_eq_ok`, `Filter.writeConditions_eq_ok`, `Filter.inlineQueries_eq_ok`: a
    condition, several conditions and a whole filter are written exactly if their placeholders are
    bare and there is a piece for each of them.
  * `Filter.inlineQueries_of_more`, `Filter.inlineQueries_of_fewer`: placeholders and values that
    differ in number are refused.
-/
import Querywright.Proofs.Placeholder.Positions
import Querywright.Select.Compile

namespace Querywright

open Placeholder

/-- A piece in parentheses. -/
def Piece.parens (piece : Piece) : Piece := ⟨"(" ++ piece.sql ++ ")", piece.arguments⟩

namespace Filter

/-! ## What is written for slots -/

/-- What is written for a slot after a number of values, and the values that it binds. -/
def Slot.pieceAt (p : Int) : Slot → Except Fault Piece
  | .inl v => .ok ⟨"?", [v]⟩
  | .inr write => (write p).map Piece.parens

/-- What is written for slots one after another. -/
def piecesFrom (p : Int) : List Slot → Except Fault (List Piece)
  | [] => .ok []
  | slot :: rest => do
    let piece ← slot.pieceAt p
    let more ← piecesFrom (p + piece.arguments.length) rest
    return piece :: more

/-- The values that pieces bind. -/
def argumentsOf (pieces : List Piece) : List Value := pieces.flatMap (·.arguments)

/-- The texts of pieces. -/
def textsOf (pieces : List Piece) : List (List Char) := pieces.map (·.sql.toList)

theorem piecesFrom_cons_eq_ok {p : Int} {slot : Slot} {rest : List Slot} {pieces : List Piece} :
    piecesFrom p (slot :: rest) = .ok pieces ↔ ∃ piece more, slot.pieceAt p = .ok piece ∧
      piecesFrom (p + piece.arguments.length) rest = .ok more ∧ pieces = piece :: more := by
  rw [piecesFrom]
  simp only [bind_eq_ok, pure_eq_ok]
  constructor
  · rintro ⟨piece, hpiece, more, hmore, rfl⟩
    exact ⟨piece, more, hpiece, hmore, rfl⟩
  · rintro ⟨piece, more, hpiece, hmore, rfl⟩
    exact ⟨piece, hpiece, more, hmore, rfl⟩

theorem length_piecesFrom {p : Int} {slots : List Slot} {pieces : List Piece}
    (h : piecesFrom p slots = .ok pieces) : pieces.length = slots.length := by
  induction slots generalizing p pieces with
  | nil =>
    cases h
    rfl
  | cons slot rest ih =>
    obtain ⟨piece, more, _, hmore, rfl⟩ := piecesFrom_cons_eq_ok.1 h
    rw [List.length_cons, List.length_cons, ih hmore]

theorem piecesFrom_nothing_bound (p : Int) (slots : List Slot) :
    piecesFrom (p + (([] : List Value).length : Int)) slots = piecesFrom p slots :=
  congrArg (piecesFrom · slots) (Int.add_zero p)

/-- The first piece is written for the first slot, and the others behind its values. -/
theorem piecesFrom_eq_ok_cons {p : Int} {slots : List Slot} {piece : Piece} {more : List Piece} :
    piecesFrom p slots = .ok (piece :: more) ↔ ∃ slot rest, slots = slot :: rest ∧
      slot.pieceAt p = .ok piece ∧ piecesFrom (p + piece.arguments.length) rest = .ok more := by
  cases slots with
  | nil => exact ⟨nofun, nofun⟩
  | cons slot rest =>
    rw [piecesFrom_cons_eq_ok]
    constructor
    · rintro ⟨_, _, hpiece, hmore, heq⟩
      cases heq
      exact ⟨slot, rest, rfl, hpiece, hmore⟩
    · rintro ⟨_, _, heq, hpiece, hmore⟩
      cases heq
      exact ⟨piece, more, hpiece, hmore, rfl⟩

/-- From the first state to the second the slots in between are written as the pieces. -/
structure Takes (p : Int) (s s' : List Slot × List Value) (pieces : List Piece) : Prop where
  used : ∃ slots, s.1 = slots ++ s'.1 ∧ piecesFrom (p + s.2.length) slots = .ok pieces
  bound : s'.2 = s.2 ++ argumentsOf pieces

theorem takes_nil_iff {p : Int} {s s' : List Slot × List Value} : Takes p s s' [] ↔ s = s' := by
  constructor
  · rintro ⟨⟨slots, hslots, hpieces⟩, hbound⟩
    have hlength := length_piecesFrom hpieces
    rw [List.eq_nil_of_length_eq_zero hlength.symm, List.nil_append] at hslots
    exact Prod.ext hslots (hbound.trans (List.append_nil _)).symm
  · rintro rfl
    exact ⟨⟨[], rfl, rfl⟩, (List.append_nil _).symm⟩

theorem takes_cons_iff {p : Int} {s s' : List Slot × List Value} {piece : Piece}
    {more : List Piece} :
    Takes p s s' (piece :: more) ↔ ∃ slot rest, s.1 = slot :: rest ∧
      slot.pieceAt (p + s.2.length) = .ok piece ∧
      Takes p (rest, s.2 ++ piece.arguments) s' more := by
  have hmoved : p + (s.2 ++ piece.arguments).length = p + s.2.length + piece.arguments.length := by
    rw [List.length_append]
    omega
  constructor
  · rintro ⟨⟨slots, hslots, hpieces⟩, hbound⟩
    obtain ⟨slot, rest, rfl, hpiece, hmore⟩ := piecesFrom_eq_ok_cons.1 hpieces
    refine ⟨slot, rest ++ s'.1, hslots, hpiece, ⟨⟨rest, rfl, ?_⟩, ?_⟩⟩
    · rw [hmoved]
      exact hmore
    · rw [hbound, argumentsOf, List.flatMap_cons, List.append_assoc]
      rfl
  · rintro ⟨slot, rest, hs, hpiece, ⟨slots, hslots, hmore⟩, hbound⟩
    rw [hmoved] at hmore
    refine ⟨⟨slot :: slots, ?_, piecesFrom_eq_ok_cons.2 ⟨slot, slots, rfl, hpiece, hmore⟩⟩, ?_⟩
    · rw [hs]
      exact congrArg (slot :: ·) hslots
    · rw [hbound, argumentsOf, argumentsOf, List.flatMap_cons, List.append_assoc]

theorem takes_append_iff {p : Int} {s s' : List Slot × List Value} (first more : List Piece) :
    Takes p s s' (first ++ more) ↔ ∃ s₁, Takes p s s₁ first ∧ Takes p s₁ s' more := by
  induction first generalizing s with
  | nil =>
    rw [List.nil_append]
    constructor
    · intro h
      exact ⟨s, takes_nil_iff.2 rfl, h⟩
    · rintro ⟨s₁, hnil, h⟩
      rwa [takes_nil_iff.1 hnil]
  | cons piece first ih =>
    rw [List.cons_append, takes_cons_iff]
    constructor
    · rintro ⟨slot, rest, hs, hpiece, hmore⟩
      obtain ⟨s₁, hfirst, h⟩ := ih.1 hmore
      exact ⟨s₁, takes_cons_iff.2 ⟨slot, rest, hs, hpiece, hfirst⟩, h⟩
    · rintro ⟨s₁, hfirst, h⟩
      obtain ⟨slot, rest, hs, hpiece, hmore⟩ := takes_cons_iff.1 hfirst
      exact ⟨slot, rest, hs, hpiece, ih.2 ⟨s₁, hmore, h⟩⟩

/-- To take all slots is to write all of them. -/
theorem takes_all_iff {p : Int} {s : List Slot × List Value} {bound : List Value}
    {pieces : List Piece} :
    Takes p s ([], bound) pieces ↔
      piecesFrom (p + s.2.length) s.1 = .ok pieces ∧ bound = s.2 ++ argumentsOf pieces := by
  constructor
  · rintro ⟨⟨slots, hslots, hpieces⟩, hbound⟩
    rw [List.append_nil] at hslots
    rw [hslots]
    exact ⟨hpieces, hbound⟩
  · rintro ⟨hpieces, hbound⟩
    exact ⟨⟨s.1, (List.append_nil _).symm, hpieces⟩, hbound⟩

/-- Where all slots can be written, so can the first ones, and then the others. -/
theorem exists_takes {p : Int} {s : List Slot × List Value} {pieces : List Piece}
    (h : piecesFrom (p + s.2.length) s.1 = .ok pieces) (n : Nat) :
    ∃ s₁, Takes p s s₁ (pieces.take n) ∧
      piecesFrom (p + s₁.2.length) s₁.1 = .ok (pieces.drop n) := by
  have hall : Takes p s ([], s.2 ++ argumentsOf pieces) pieces := takes_all_iff.2 ⟨h, rfl⟩
  rw [← List.take_append_drop n pieces] at hall
  obtain ⟨s₁, hfirst, hrest⟩ := (takes_append_iff _ _).1 hall
  exact ⟨s₁, hfirst, (takes_all_iff.1 hrest).1⟩

/-! ## Writing slots into conditions -/

section

variable {clause condition : String} {p : Int} {total : Nat}

theorem writeMark_bare (slot : Slot) (rest : List Slot) (bound : List Value) :
    writeMark clause condition p total [] (slot :: rest, bound) =
      (slot.pieceAt (p + bound.length)).map fun piece =>
        (piece.sql.toList, rest, bound ++ piece.arguments) := by
  cases slot with
  | inl v =>
    have hmark : "?".toList = ['?'] := by decide
    show Except.ok (['?'], rest, bound ++ [v]) = Except.ok ("?".toList, rest, bound ++ [v])
    rw [hmark]
  | inr write =>
    unfold writeMark
    simp only [List.isEmpty_nil, Bool.not_true, Bool.false_eq_true, if_false, Slot.pieceAt]
    cases write (p + bound.length) with
    | error e => rfl
    | ok piece =>
      show Except.ok ('(' :: piece.sql.toList ++ [')'], rest, bound ++ piece.arguments) =
        Except.ok (("(" ++ piece.sql ++ ")").toList, rest, bound ++ piece.arguments)
      rw [String.toList_append, String.toList_append]
      rfl

theorem writeMark_numbered {digits : List Char} (h : digits ≠ []) (s : List Slot × List Value) :
    writeMark clause condition p total digits s = .error (.shape (.numberedSubquery clause)) := by
  unfold writeMark
  rw [if_pos (by simpa using h)]

/-- A placeholder is written if it is bare, and a slot is left for it. -/
theorem writeMark_eq_ok {digits here : List Char} {s s' : List Slot × List Value} :
    writeMark clause condition p total digits s = .ok (here, s') ↔
      digits = [] ∧ ∃ piece, Takes p s s' [piece] ∧ here = piece.sql.toList := by
  obtain ⟨slots, bound⟩ := s
  by_cases hbare : digits = []
  · subst hbare
    cases slots with
    | nil =>
      refine ⟨nofun, ?_⟩
      rintro ⟨-, piece, htakes, -⟩
      obtain ⟨slot, rest, hslots, -, -⟩ := takes_cons_iff.1 htakes
      cases hslots
    | cons slot rest =>
      rw [writeMark_bare, map_eq_ok]
      constructor
      · rintro ⟨piece, hpiece, heq⟩
        cases heq
        exact ⟨rfl, piece, takes_cons_iff.2 ⟨slot, rest, rfl, hpiece, takes_nil_iff.2 rfl⟩, rfl⟩
      · rintro ⟨-, piece, htakes, rfl⟩
        obtain ⟨_, _, heq, hpiece, hrest⟩ := takes_cons_iff.1 htakes
        cases heq
        exact ⟨piece, hpiece, by rw [← takes_nil_iff.1 hrest]⟩
  · rw [writeMark_numbered hbare]
    exact ⟨nofun, fun h => absurd h.1 hbare⟩

theorem writeMark_short (bound : List Value) :
    writeMark clause condition p total [] ([], bound) =
      .error (mismatch clause (some condition) (total + 1) total) := rfl

/-- The lexemes of a condition are written if their placeholders are all bare, with a piece for each
of them. -/
theorem writeMarks_eq_ok {ls : List Lexeme} {s s' : List Slot × List Value} {text : List Char} :
    writeMarks (writeMark clause condition p total) ls s = .ok (text, s') ↔
      (∀ digits ∈ marks ls, digits = []) ∧ ∃ pieces, Takes p s s' pieces ∧
        pieces.length = (marks ls).length ∧ text = fill ls (textsOf pieces) := by
  induction ls generalizing s text with
  | nil =>
    rw [writeMarks]
    constructor
    · intro h
      cases h
      exact ⟨nofun, [], takes_nil_iff.2 rfl, rfl, rfl⟩
    · rintro ⟨-, pieces, htakes, hlength, rfl⟩
      cases List.eq_nil_of_length_eq_zero hlength
      rw [takes_nil_iff.1 htakes]
      rfl
  | cons l rest ih =>
    cases l with
    | plain c =>
      simp only [writeMarks, bind_eq_ok, pure_eq_ok]
      constructor
      · rintro ⟨⟨more, _⟩, hmore, heq⟩
        cases heq
        obtain ⟨hbare, pieces, htakes, hlength, rfl⟩ := ih.1 hmore
        exact ⟨hbare, pieces, htakes, hlength, rfl⟩
      · rintro ⟨hbare, pieces, htakes, hlength, rfl⟩
        exact ⟨_, ih.2 ⟨hbare, pieces, htakes, hlength, rfl⟩, rfl⟩
    | mark digits =>
      simp only [writeMarks, bind_eq_ok, pure_eq_ok]
      constructor
      · rintro ⟨⟨here, s₁⟩, hhere, ⟨more, _⟩, hmore, heq⟩
        cases heq
        obtain ⟨rfl, piece, hpiece, rfl⟩ := writeMark_eq_ok.1 hhere
        obtain ⟨hbare, pieces, htakes, hlength, rfl⟩ := ih.1 hmore
        refine ⟨List.forall_mem_cons.2 ⟨rfl, hbare⟩, piece :: pieces, ?_, ?_, rfl⟩
        · exact (takes_append_iff [piece] pieces).2 ⟨s₁, hpiece, htakes⟩
        · exact congrArg (· + 1) hlength
      · rintro ⟨hbare, pieces, htakes, hlength, rfl⟩
        obtain ⟨rfl, hrest⟩ := List.forall_mem_cons.1 hbare
        obtain ⟨piece, more, rfl⟩ := List.exists_cons_of_length_eq_add_one hlength
        obtain ⟨s₁, hpiece, hmore⟩ := (takes_append_iff [piece] more).1 htakes
        exact ⟨_, writeMark_eq_ok.2 ⟨rfl, piece, hpiece, rfl⟩, _,
          ih.2 ⟨hrest, more, hmore, Nat.succ.inj hlength, rfl⟩, rfl⟩

/-- With fewer slots than placeholders the slots that there are are written first. -/
theorem writeMarks_short {ls : List Lexeme} (hbare : ∀ digits ∈ marks ls, digits = [])
    {s : List Slot × List Value} {pieces : List Piece}
    (hpieces : piecesFrom (p + s.2.length) s.1 = .ok pieces)
    (hshort : s.1.length < (marks ls).length) :
    writeMarks (writeMark clause condition p total) ls s =
      .error (mismatch clause (some condition) (total + 1) total) := by
  induction ls generalizing s pieces with
  | nil => cases hshort
  | cons l rest ih =>
    cases l with
    | plain c =>
      rw [writeMarks, ih hbare hpieces hshort]
      rfl
    | mark digits =>
      obtain ⟨rfl, hrest⟩ := List.forall_mem_cons.1 hbare
      obtain ⟨slots, bound⟩ := s
      cases slots with
      | nil =>
        rw [writeMarks, writeMark_short]
        rfl
      | cons slot slots =>
        obtain ⟨piece, more, hpiece, hmore, rfl⟩ := piecesFrom_cons_eq_ok.1 hpieces
        have hfew : slots.length < (marks rest).length := Nat.lt_of_succ_lt_succ hshort
        have hmoved : p + bound.length + piece.arguments.length =
            p + (bound ++ piece.arguments).length := by
          rw [List.length_append]
          omega
        rw [hmoved] at hmore
        have hmissing := @ih hrest (slots, bound ++ piece.arguments) more hmore hfew
        simp only [writeMarks, writeMark_bare, hpiece, Except.map, ok_bind, hmissing, error_bind]

end

/-! ## Conditions one after another -/

theorem texts_cons_eq_ok {v : Value} {rest : List Value} {texts : List String}
    (h : Value.texts (v :: rest) = .ok texts) :
    ∃ t more, v.asText? = some t ∧ Value.texts rest = .ok more ∧ texts = t :: more := by
  rw [Value.texts] at h
  cases hv : v.asText? with
  | none => simp [hv] at h
  | some t =>
    cases hrest : Value.texts rest with
    | error e => simp [hv, hrest] at h
    | ok more =>
      simp only [hv, hrest, Except.ok.injEq] at h
      exact ⟨t, more, rfl, rfl, h.symm⟩

/-- How many placeholders a text has. -/
def markCount (t : String) : Nat := (placed t.toList).length

/-- How many placeholders texts have. -/
def markCounts : List String → Nat
  | [] => 0
  | t :: rest => markCount t + markCounts rest

/-- As many pieces as texts have placeholders: those of the first text, and those of the others. -/
theorem exists_pieces {t : String} {rest : List String} {pieces : List Piece}
    (h : pieces.length = markCounts (t :: rest)) :
    ∃ first more, pieces = first ++ more ∧ first.length = markCount t ∧
      more.length = markCounts rest := by
  rw [markCounts] at h
  refine ⟨pieces.take (markCount t), pieces.drop (markCount t),
    (List.take_append_drop _ _).symm, ?_, ?_⟩
  · rw [List.length_take]
    omega
  · rw [List.length_drop]
    omega

/-- Whether the placeholders of a text are all bare. -/
def AllBare (t : String) : Prop := ∀ token ∈ placed t.toList, token.isBare = true

instance (t : String) : Decidable (AllBare t) := inferInstanceAs (Decidable (∀ token ∈ _, _ = _))

/-- The conditions with texts written in the place of their placeholders, one after another. -/
def fillEach : List String → List (List Char) → List String
  | [], _ => []
  | t :: rest, texts =>
    String.ofList (fill (lex t.toList) texts) :: fillEach rest (texts.drop (markCount t))

theorem length_fillEach (texts : List String) (written : List (List Char)) :
    (fillEach texts written).length = texts.length := by
  induction texts generalizing written with
  | nil => rfl
  | cons t rest ih => rw [fillEach, List.length_cons, List.length_cons, ih]

theorem length_marks (t : String) : (marks (lex t.toList)).length = markCount t := by
  have hnumbers := congrArg List.length (number_tokensFrom 0 (lex t.toList))
  rw [List.length_map, List.length_map, tokensFrom_lex] at hnumbers
  exact hnumbers.symm

theorem allBare_iff {t : String} :
    AllBare t ↔ ∀ digits ∈ marks (lex t.toList), digits = [] := by
  have hnumbers := number_tokensFrom 0 (lex t.toList)
  rw [tokensFrom_lex] at hnumbers
  have hnone (digits : List Char) : number? digits = none ↔ digits = [] := by
    cases digits <;> simp [number?]
  have hall : AllBare t ↔ ∀ n? ∈ (placed t.toList).map Token.number, n? = none := by
    simp [AllBare, Token.isBare]
  rw [hall, hnumbers, List.forall_mem_map]
  exact forall₂_congr fun digits _ => hnone digits

theorem AllBare.numbers {t : String} (h : AllBare t) : ∃ ns, numbers t.toList = .ok ns := by
  refine ⟨_, numbers_eq_ok.2 ⟨fun digits hd => ?_, rfl⟩⟩
  rw [allBare_iff.1 h digits hd]
  exact Nat.zero_le _

section

variable {clause : String} {p : Int} {total : Nat}

/-- Texts beyond the placeholders are not written. -/
theorem fill_append {ls : List Lexeme} {texts : List (List Char)}
    (h : texts.length = (marks ls).length) (more : List (List Char)) :
    fill ls (texts ++ more) = fill ls texts := by
  induction ls generalizing texts with
  | nil => rfl
  | cons l rest ih =>
    cases l with
    | plain c => exact congrArg (c :: ·) (ih h)
    | mark digits =>
      obtain ⟨text, others, rfl⟩ := List.exists_cons_of_length_eq_add_one h
      exact congrArg (text ++ ·) (ih (Nat.succ.inj h))

theorem fillEach_append {t : String} {first : List Piece} (h : first.length = markCount t)
    (rest : List String) (more : List Piece) :
    fillEach (t :: rest) (textsOf (first ++ more)) =
      String.ofList (fill (lex t.toList) (textsOf first)) :: fillEach rest (textsOf more) := by
  have hlength : (textsOf first).length = markCount t := by rw [textsOf, List.length_map, h]
  have hmarks : (textsOf first).length = (marks (lex t.toList)).length := by
    rw [hlength, length_marks]
  have hsplit : textsOf (first ++ more) = textsOf first ++ textsOf more := List.map_append
  rw [fillEach, hsplit, fill_append hmarks, ← hlength, List.drop_left]

/-- The conditions are written if their placeholders are all bare, with a piece for each of them. -/
theorem writeConditions_eq_ok {conditions : List Value} {s s' : List Slot × List Value}
    {written : List String} :
    writeConditions clause p total conditions s = .ok (written, s') ↔
      ∃ texts pieces, Value.texts conditions = .ok texts ∧ (∀ t ∈ texts, AllBare t) ∧
        Takes p s s' pieces ∧ pieces.length = markCounts texts ∧
        written = fillEach texts (textsOf pieces) := by
  induction conditions generalizing s written with
  | nil =>
    rw [writeConditions]
    constructor
    · intro h
      cases h
      exact ⟨[], [], rfl, nofun, takes_nil_iff.2 rfl, rfl, rfl⟩
    · rintro ⟨texts, pieces, htexts, -, htakes, hlength, rfl⟩
      cases htexts
      cases List.eq_nil_of_length_eq_zero hlength
      rw [takes_nil_iff.1 htakes]
      rfl
  | cons v rest ih =>
    rw [writeConditions]
    constructor
    · intro h
      cases hv : v.asText? with
      | none =>
        rw [hv] at h
        cases h
      | some t =>
        rw [hv] at h
        simp only [bind_eq_ok, pure_eq_ok] at h
        obtain ⟨_, _, ⟨text, s₁⟩, hmarks, ⟨others, _⟩, hrest, heq⟩ := h
        cases heq
        obtain ⟨hbare, first, hfirst, hcount, rfl⟩ := writeMarks_eq_ok.1 hmarks
        obtain ⟨texts, more, htexts, hall, hmore, hcounts, rfl⟩ := ih.1 hrest
        rw [length_marks] at hcount
        refine ⟨t :: texts, first ++ more, by simp [Value.texts, hv, htexts],
          List.forall_mem_cons.2 ⟨allBare_iff.2 hbare, hall⟩,
          (takes_append_iff first more).2 ⟨s₁, hfirst, hmore⟩, ?_,
          (fillEach_append hcount _ _).symm⟩
        rw [List.length_append, hcount, hcounts, markCounts]
    · rintro ⟨texts, pieces, htexts, hall, htakes, hlength, rfl⟩
      obtain ⟨t, others, hv, hothers, rfl⟩ := texts_cons_eq_ok htexts
      obtain ⟨hbare, hrest⟩ := List.forall_mem_cons.1 hall
      obtain ⟨ns, hns⟩ := hbare.numbers
      obtain ⟨first, more, rfl, hcount, hcounts⟩ := exists_pieces hlength
      obtain ⟨s₁, hfirst, hmore⟩ := (takes_append_iff _ _).1 htakes
      have hmarks : writeMarks (writeMark clause t p total) (lex t.toList) s = .ok (_, s₁) :=
        writeMarks_eq_ok.2
          ⟨allBare_iff.1 hbare, _, hfirst, hcount.trans (length_marks t).symm, rfl⟩
      have hconditions := ih.2 ⟨others, _, hothers, hrest, hmore, hcounts, rfl⟩
      rw [hv, fillEach_append hcount]
      simp only [hns, hmarks, hconditions, ok_bind]
      rfl

/-- With fewer slots than placeholders some condition is left without one. -/
theorem writeConditions_short {conditions : List Value} {texts : List String}
    (htexts : Value.texts conditions = .ok texts) (hall : ∀ t ∈ texts, AllBare t)
    {s : List Slot × List Value} {pieces : List Piece}
    (hpieces : piecesFrom (p + s.2.length) s.1 = .ok pieces)
    (hshort : s.1.length < markCounts texts) :
    ∃ t ∈ texts, writeConditions clause p total conditions s =
      .error (mismatch clause (some t) (total + 1) total) := by
  induction conditions generalizing s texts pieces with
  | nil =>
    cases htexts
    cases hshort
  | cons v rest ih =>
    obtain ⟨t, others, hv, hothers, rfl⟩ := texts_cons_eq_ok htexts
    obtain ⟨hbare, hrest⟩ := List.forall_mem_cons.1 hall
    obtain ⟨ns, hns⟩ := hbare.numbers
    rw [markCounts] at hshort
    have hlength := length_piecesFrom hpieces
    by_cases hhere : s.1.length < markCount t
    · have hfew : s.1.length < (marks (lex t.toList)).length := by rwa [length_marks]
      refine ⟨t, List.mem_cons_self, ?_⟩
      rw [writeConditions, hv]
      simp only [hns, ok_bind, writeMarks_short (allBare_iff.1 hbare) hpieces hfew, error_bind]
    · obtain ⟨s₁, hfirst, hmore⟩ := exists_takes hpieces (markCount t)
      have hcount : (pieces.take (markCount t)).length = markCount t := by
        rw [List.length_take]
        omega
      have hmarks : writeMarks (writeMark clause t p total) (lex t.toList) s = .ok (_, s₁) :=
        writeMarks_eq_ok.2
          ⟨allBare_iff.1 hbare, _, hfirst, hcount.trans (length_marks t).symm, rfl⟩
      have hleft : s₁.1.length < markCounts others := by
        have hdrop := length_piecesFrom hmore
        rw [List.length_drop] at hdrop
        omega
      obtain ⟨t', ht', herror⟩ := ih hothers hrest hmore hleft
      refine ⟨t', List.mem_cons_of_mem t ht', ?_⟩
      rw [writeConditions, hv]
      simp only [hns, hmarks, herror, ok_bind, error_bind]

end

section

variable {clause : String} {p : Int} {conditions : List Value} {slots : List Slot}

/-- Subqueries are written into conditions if the placeholders are all bare, and as many as the
values. -/
theorem inlineQueries_eq_ok {written : List String} {bound : List Value} :
    inlineQueries clause p conditions slots = .ok (written, bound) ↔
      ∃ texts pieces, Value.texts conditions = .ok texts ∧ (∀ t ∈ texts, AllBare t) ∧
        piecesFrom p slots = .ok pieces ∧ markCounts texts = slots.length ∧
        written = fillEach texts (textsOf pieces) ∧ bound = argumentsOf pieces := by
  rw [inlineQueries, bind_eq_ok]
  constructor
  · rintro ⟨⟨written', left, bound'⟩, hwrite, h⟩
    dsimp only at h
    cases left with
    | nil =>
      cases h
      obtain ⟨texts, pieces, htexts, hall, htakes, hcount, rfl⟩ := writeConditions_eq_ok.1 hwrite
      obtain ⟨hpieces, rfl⟩ := takes_all_iff.1 htakes
      rw [piecesFrom_nothing_bound] at hpieces
      exact ⟨texts, pieces, htexts, hall, hpieces,
        hcount.symm.trans (length_piecesFrom hpieces), rfl, rfl⟩
    | cons slot left =>
      simp only [List.isEmpty_cons, Bool.false_eq_true, if_false, bind_eq_ok] at h
      obtain ⟨_, _, h⟩ := h
      cases h
  · rintro ⟨texts, pieces, htexts, hall, hpieces, hcount, rfl, rfl⟩
    have htakes : Takes p (slots, []) ([], argumentsOf pieces) pieces :=
      takes_all_iff.2 ⟨(piecesFrom_nothing_bound p slots).trans hpieces, rfl⟩
    exact ⟨_, writeConditions_eq_ok.2
      ⟨texts, pieces, htexts, hall, htakes, (length_piecesFrom hpieces).trans hcount.symm, rfl⟩, rfl⟩

variable {texts : List String} {pieces : List Piece} (htexts : Value.texts conditions = .ok texts)
  (hall : ∀ t ∈ texts, AllBare t) (hpieces : piecesFrom p slots = .ok pieces)

include htexts hall hpieces

/-- More placeholders than values are refused at the condition where the values run out. -/
theorem inlineQueries_of_more (h : slots.length < markCounts texts) :
    ∃ t ∈ texts, inlineQueries clause p conditions slots =
      .error (mismatch clause (some t) (slots.length + 1) slots.length) := by
  have hstart := (piecesFrom_nothing_bound p slots).trans hpieces
  have hwrite : ∃ t ∈ texts, writeConditions clause p slots.length conditions (slots, []) =
      .error (mismatch clause (some t) (slots.length + 1) slots.length) :=
    writeConditions_short htexts hall hstart h
  obtain ⟨t, ht, herror⟩ := hwrite
  exact ⟨t, ht, by rw [inlineQueries, herror, error_bind]⟩

/-- Fewer placeholders than values are refused at the end. -/
theorem inlineQueries_of_fewer (h : markCounts texts < slots.length) :
    inlineQueries clause p conditions slots =
      .error (mismatch clause (some (ConditionSet.joined texts)) (markCounts texts) slots.length) := by
  have hlength := length_piecesFrom hpieces
  have hstart : piecesFrom (p + ((slots, ([] : List Value)).2.length : Int)) slots = .ok pieces :=
    (piecesFrom_nothing_bound p slots).trans hpieces
  obtain ⟨s₁, hfirst, hrest⟩ := exists_takes hstart (markCounts texts)
  have hcount : (pieces.take (markCounts texts)).length = markCounts texts := by
    rw [List.length_take]
    omega
  have hwrite : writeConditions clause p slots.length conditions (slots, []) = .ok (_, s₁) :=
    writeConditions_eq_ok.2 ⟨texts, _, htexts, hall, hfirst, hcount, rfl⟩
  have hleft := length_piecesFrom hrest
  rw [List.length_drop] at hleft
  have hsome : s₁.1.isEmpty = false := by
    cases hs : s₁.1 with
    | nil =>
      rw [hs] at hleft
      simp at hleft
      omega
    | cons slot rest => rfl
  have htotal : slots.length - s₁.1.length = markCounts texts := by omega
  rw [inlineQueries, hwrite, ok_bind]
  dsimp only
  rw [hsome, htexts, htotal]
  rfl

end

end Filter
end Querywright
