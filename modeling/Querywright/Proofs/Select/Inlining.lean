/-
  Conditions with subqueries written into them, read after the values before them.

  * `Filter.Filled`: the values of a filter take consecutive indexes; a subquery's placeholders
    take those that they take where the subquery is written alone after the values before it.
  * `Filter.Follow`: the same for the pieces that are written for them (`Filter.filled_of_pieces`).
    `Filter.Follow.reads_fill` reads them in a condition, `Filter.Follow.chain_fillEach` in one
    condition after another.
  * `Filter.inlineQueries_reads`: these are the indexes that the placeholders of the written
    conditions take, whatever literals the conditions and the subqueries hold.
-/
import Querywright.Proofs.Select.Fragments

namespace Querywright

open Placeholder

namespace Filter

/-! ## Slots in order -/

/-- A value, or a subquery whose placeholders reach exactly the values that it binds. -/
def Slot.Readable : Slot → Prop
  | .inl _ => True
  | .inr write => ∀ p piece, write p = .ok piece →
      ∃ is, Reads p piece.sql is ∧ highest p is = p + piece.arguments.length

/-- Slots written one after another after `p` values: the indexes that their placeholders take
and the values that they bind. -/
inductive Filled : Int → List Slot → List Int → List Value → Prop where
  | nil (p : Int) : Filled p [] [] []
  | value {p : Int} {v : Value} {slots : List Slot} {is : List Int} {bound : List Value} :
    Filled (p + 1) slots is bound → Filled p (.inl v :: slots) ((p + 1) :: is) (v :: bound)
  | query {p : Int} {write : Int → Except Fault Piece} {piece : Piece} {is : List Int}
    {slots : List Slot} {js : List Int} {bound : List Value} :
    write p = .ok piece → Reads p piece.sql is → highest p is = p + piece.arguments.length →
    Filled (p + piece.arguments.length) slots js bound →
    Filled p (.inr write :: slots) (is ++ js) (piece.arguments ++ bound)

theorem Filled.highest {p : Int} {slots : List Slot} {is : List Int} {bound : List Value}
    (h : Filled p slots is bound) : highest p is = p + bound.length := by
  induction h with
  | nil p => simp [Placeholder.highest]
  | value _ ih =>
    rw [highest_cons, Int.max_eq_right (by omega), ih, List.length_cons]
    omega
  | query _ _ hreach _ ih =>
    rw [highest_append, hreach, ih, List.length_append]
    omega

/-- What is written for a slot takes the indexes behind the values before it. -/
theorem Slot.Readable.filled {slot : Slot} (hslot : slot.Readable) {p : Int} {piece : Piece}
    (h : slot.pieceAt p = .ok piece) :
    ∃ is, Reads p piece.sql is ∧
      (∃ c, piece.sql.toList.head? = some c ∧ Text.isDigit c = false) ∧
      Placeholder.highest p is = p + piece.arguments.length ∧
      ∀ {slots js bound}, Filled (p + piece.arguments.length) slots js bound →
        Filled p (slot :: slots) (is ++ js) (piece.arguments ++ bound) := by
  cases slot with
  | inl v =>
    cases h
    have hmark : Reads p "?" [p + 1] := reads_iff.2 (readsFrom_mark p)
    have hhead : "?".toList.head? = some '?' := by decide
    refine ⟨[p + 1], hmark, ⟨'?', hhead, by decide⟩, ?_, fun hrest => .value hrest⟩
    rw [highest_cons, Int.max_eq_right (by omega)]
    rfl
  | inr write =>
    obtain ⟨own, hown, rfl⟩ := map_eq_ok.1 h
    obtain ⟨is, hreads, hreach⟩ := hslot p own hown
    have hhead : own.parens.sql.toList.head? = some '(' := by
      rw [Piece.parens, String.append_assoc, String.toList_append]
      rfl
    refine ⟨is, hreads.parens, ⟨'(', hhead, by decide⟩, hreach, fun {slots js bound} hrest => ?_⟩
    have hfilled : Filled p (.inr write :: slots) (is ++ js) (own.arguments ++ bound) :=
      .query hown hreads hreach hrest
    exact hfilled

/-! ## Pieces in order -/

/-- Pieces written one after another after `p` values: the indexes that their placeholders take.
None of them begins with a digit. -/
inductive Follow : Int → List Piece → List Int → Prop where
  | nil (p : Int) : Follow p [] []
  | cons {p : Int} {piece : Piece} {is : List Int} {c : Char} {more : List Piece} {js : List Int} :
    Reads p piece.sql is → piece.sql.toList.head? = some c → Text.isDigit c = false →
    Placeholder.highest p is = p + piece.arguments.length →
    Follow (p + piece.arguments.length) more js → Follow p (piece :: more) (is ++ js)

theorem filled_of_pieces {p : Int} {slots : List Slot} {pieces : List Piece}
    (h : piecesFrom p slots = .ok pieces) (hs : ∀ slot ∈ slots, slot.Readable) :
    ∃ is, Filled p slots is (argumentsOf pieces) ∧ Follow p pieces is := by
  induction slots generalizing p pieces with
  | nil =>
    cases h
    exact ⟨[], .nil p, .nil p⟩
  | cons slot rest ih =>
    obtain ⟨piece, more, hpiece, hmore, rfl⟩ := piecesFrom_cons_eq_ok.1 h
    obtain ⟨hslot, hrest⟩ := List.forall_mem_cons.1 hs
    obtain ⟨is, hreads, ⟨c, hhead, hc⟩, hreach, hfilled⟩ := hslot.filled hpiece
    obtain ⟨js, hrestFilled, hfollow⟩ := ih hmore hrest
    exact ⟨is ++ js, hfilled hrestFilled, .cons hreads hhead hc hreach hfollow⟩

/-- The first pieces, and those behind them. -/
theorem Follow.split {first more : List Piece} {p : Int} {is : List Int}
    (h : Follow p (first ++ more) is) :
    ∃ js ks, is = js ++ ks ∧ Follow p first js ∧ Follow (Placeholder.highest p js) more ks := by
  induction first generalizing p is with
  | nil => exact ⟨[], is, rfl, .nil p, h⟩
  | cons piece first ih =>
    cases h with
    | @cons _ _ here c _ _ hreads hhead hc hreach hrest =>
      obtain ⟨js, ks, rfl, hfirst, hmore⟩ := ih hrest
      refine ⟨here ++ js, ks, (List.append_assoc _ _ _).symm,
        .cons hreads hhead hc hreach hfirst, ?_⟩
      rwa [highest_append, hreach]

/-! ## Pieces in conditions -/

/-- Pieces written for the placeholders of a text. The induction is on the lexemes; a quote changes
the side on which the rest is read. -/
theorem Follow.reads_fill {inside : Bool} {ls : List Lexeme} (hl : Lexed inside ls)
    (hquotes : (unlex ls).count quote % 2 = inside.toNat) {p : Int} {pieces : List Piece}
    {is : List Int} (h : Follow p pieces is) (hlength : pieces.length = (marks ls).length) :
    ReadsFrom inside p (fill ls (textsOf pieces)) is ∧
      ((∀ c ∈ (unlex ls).head?, Text.isDigit c = false) →
        ∀ c ∈ (fill ls (textsOf pieces)).head?, Text.isDigit c = false) := by
  induction ls generalizing inside p pieces is with
  | nil =>
    cases List.eq_nil_of_length_eq_zero hlength
    cases h
    cases inside with
    | true => cases hquotes
    | false => exact ⟨⟨rfl, fun _ hd => absurd hd List.not_mem_nil, rfl⟩, id⟩
  | cons l rest ih =>
    cases l with
    | plain c =>
      rw [unlex_cons, Lexeme.text, List.singleton_append] at hquotes ⊢
      rw [lexed_plain] at hl
      by_cases hq : c = quote
      · subst hq
        rw [if_pos rfl] at hl
        rw [List.count_cons_self] at hquotes
        obtain ⟨hreads, -⟩ := ih hl (parity_opens hquotes) h hlength
        rw [opens_of_parity hquotes] at hreads
        exact ⟨hreads.cons_quote, id⟩
      · rw [if_neg hq] at hl
        rw [List.count_cons_of_ne hq] at hquotes
        obtain ⟨hreads, -⟩ := ih hl.2 hquotes h hlength
        exact ⟨hreads.cons_plain hq hl.1, id⟩
    | mark digits =>
      obtain ⟨rfl, hdigits, hhead, hrest⟩ := hl
      rw [unlex_cons, List.count_append, count_quote_mark hdigits, Nat.zero_add] at hquotes
      cases h with
      | nil => cases hlength
      | @cons _ piece here c more js hreads hhere hc hreach hmore =>
        obtain ⟨hbehind, hbehindHead⟩ := ih hrest hquotes hmore (Nat.succ.inj hlength)
        have hmeet : ¬ Continues piece.sql.toList (fill rest (textsOf more)) := by
          rintro ⟨-, d, hd, hdigit⟩
          rw [hbehindHead hhead d hd] at hdigit
          cases hdigit
        rw [← hreach] at hbehind
        refine ⟨(reads_iff.1 hreads).append hbehind hmeet, fun _ d hd => ?_⟩
        rw [textsOf, List.map_cons, fill, List.head?_append, hhere] at hd
        cases hd
        exact hc

/-- Pieces written for the placeholders of conditions, one condition after another. -/
theorem Follow.chain_fillEach {texts : List String} (hquotes : ∀ t ∈ texts, Balanced t.toList) {p : Int}
    {pieces : List Piece} {is : List Int} (h : Follow p pieces is)
    (hlength : pieces.length = markCounts texts) :
    Chain p (fillEach texts (textsOf pieces)) is := by
  induction texts generalizing p pieces is with
  | nil =>
    cases List.eq_nil_of_length_eq_zero hlength
    cases h
    exact .nil p
  | cons t rest ih =>
    obtain ⟨hhere, hrest⟩ := List.forall_mem_cons.1 hquotes
    obtain ⟨first, more, rfl, hcount, hcounts⟩ := exists_pieces hlength
    obtain ⟨js, ks, rfl, hfirst, hmore⟩ := h.split
    have hparity : (unlex (lex t.toList)).count quote % 2 = false.toNat := by
      rw [unlex_lex]
      exact hhere
    have hreads := (hfirst.reads_fill (lexed_lexFrom false t.toList) hparity
      (hcount.trans (length_marks t).symm)).1
    rw [fillEach_append hcount]
    refine .cons ?_ (ih hrest hmore hcounts)
    rw [reads_iff, String.toList_ofList]
    exact hreads

theorem inlineQueries_reads {clause : String} {p : Int} {conditions : List Value}
    {slots : List Slot} {written : List String} {bound : List Value}
    (h : inlineQueries clause p conditions slots = .ok (written, bound))
    (hb : ∀ texts, Value.texts conditions = .ok texts →
      ∀ t ∈ texts, Placeholder.Balanced t.toList)
    (hs : ∀ slot ∈ slots, slot.Readable) :
    ∃ is, Filled p slots is bound ∧ Reads p (ConditionSet.joined written) is := by
  have hand : Plain " AND " := plain_of_not_mem (by decide) (by decide)
  obtain ⟨texts, pieces, htexts, -, hpieces, hcount, rfl, rfl⟩ := inlineQueries_eq_ok.1 h
  obtain ⟨is, hfilled, hfollow⟩ := filled_of_pieces hpieces hs
  have hlength := (length_piecesFrom hpieces).trans hcount.symm
  have hchain := hfollow.chain_fillEach (hb texts htexts) hlength
  exact ⟨is, hfilled, hchain.intercalate hand (c := ' ') rfl (by decide)⟩

end Filter
end Querywright
