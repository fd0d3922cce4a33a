/-
  Where the placeholders of a text stand, by the quotes before and after each place.

  * `Outside s i`: an even number of quotes stands before the place, or none after it.
  * `placed s` goes through all places and takes each `?` that is `Outside`, with the digits after
    it.
  * `tokensFrom_lexFrom`: what the lexer finds behind a part of a text is what is placed there.
  * `scan_by_quotes`: scanning gives the placed tokens, unless one has too many digits. They are
    what `tokenPattern` finds.
-/
import Querywright.Proofs.Placeholder.NonZero
import Querywright.Proofs.Placeholder.Pattern

namespace Querywright.Placeholder

open Text

/-- No literal is open at a place: it has an even number of quotes before it, or the quote that
opened one is the last of the text. -/
def Outside (s : List Char) (i : Nat) : Prop :=
  (s.take i).count quote % 2 = 0 ∨ quote ∉ s.drop (i + 1)

instance (s : List Char) (i : Nat) : Decidable (Outside s i) := inferInstanceAs (Decidable (_ ∨ _))

/-- The digits behind a place. -/
def digitsAfter (s : List Char) (i : Nat) : List Char := (s.drop (i + 1)).takeWhile isDigit

/-- The placeholder at a place. -/
def tokenAt? (s : List Char) (i : Nat) : Option Token :=
  if s[i]? = some '?' ∧ Outside s i then
    some ⟨i, i + 1 + (digitsAfter s i).length, number? (digitsAfter s i)⟩
  else none

/-- The placeholders at the places of a text, in order. -/
def placed (s : List Char) : List Token := (List.range s.length).filterMap (tokenAt? s)

/-- How many digits a placeholder has. -/
def Token.digits (t : Token) : Nat := t.stop - t.start - 1

/-! ## The lexer and the places -/

theorem tokensFrom_mark (position : Nat) (rest : List Char) :
    tokensFrom position (lexFrom false ('?' :: rest)) =
      ⟨position, position + 1 + (rest.takeWhile isDigit).length, number? (rest.takeWhile isDigit)⟩
        :: tokensFrom (position + 1) (lexFrom false rest) := by
  have hdigits := lexFrom_digits false (rest.takeWhile isDigit) (rest.dropWhile isDigit)
    fun c hc => isDigit_of_mem_takeWhile hc
  rw [List.takeWhile_append_dropWhile] at hdigits
  rw [lexFrom_mark, tokensFrom, hdigits, tokensFrom_plain]

/-- A `?` with an even number of quotes before it, or none after it, is a placeholder. -/
theorem tokenAt?_mark {front rest : List Char}
    (h : front.count quote % 2 = 0 ∨ quote ∉ rest) :
    tokenAt? (front ++ '?' :: rest) front.length =
      some ⟨front.length, front.length + 1 + (rest.takeWhile isDigit).length,
        number? (rest.takeWhile isDigit)⟩ := by
  have hplace : (front ++ '?' :: rest)[front.length]? = some '?' := by simp
  have hdrop : (front ++ '?' :: rest).drop (front.length + 1) = rest := by
    simp [List.drop_append, List.drop_eq_nil_of_le]
  have houtside : Outside (front ++ '?' :: rest) front.length := by
    rw [Outside, List.take_left, hdrop]
    exact h
  rw [tokenAt?, if_pos ⟨hplace, houtside⟩, digitsAfter, hdrop]

theorem tokenAt?_eq_none {front rest : List Char} {c : Char}
    (h : c = '?' → front.count quote % 2 = 1 ∧ quote ∈ rest) :
    tokenAt? (front ++ c :: rest) front.length = none := by
  have hplace : (front ++ c :: rest)[front.length]? = some c := by simp
  have hdrop : (front ++ c :: rest).drop (front.length + 1) = rest := by
    simp [List.drop_append, List.drop_eq_nil_of_le]
  rw [tokenAt?, if_neg]
  rintro ⟨hmark, houtside⟩
  obtain ⟨hodd, hmem⟩ := h (Option.some.inj (hplace.symm.trans hmark))
  rw [Outside, List.take_left, hdrop] at houtside
  rcases houtside with heven | hnot
  · omega
  · exact hnot hmem

/-- Inside a literal an odd number of quotes came before, and another one closes it. -/
def Within (inside : Bool) (front rest : List Char) : Prop :=
  inside = true ↔ front.count quote % 2 = 1 ∧ quote ∈ rest

theorem Within.cons_quote {inside : Bool} {front rest : List Char}
    (h : Within inside front (quote :: rest)) :
    Within (opens inside rest) (front ++ [quote]) rest := by
  have hcount : (front ++ [quote]).count quote = front.count quote + 1 := by simp
  have hparity : inside = true ↔ front.count quote % 2 = 1 :=
    h.trans (and_iff_left List.mem_cons_self)
  rw [Within, hcount, opens, Bool.and_eq_true, List.contains_iff_mem]
  refine and_congr_left fun _ => ?_
  cases inside with
  | true =>
    have := hparity.1 rfl
    simp only [Bool.not_true, Bool.false_eq_true, false_iff]
    omega
  | false =>
    have hodd : ¬front.count quote % 2 = 1 := fun hodd =>
      Bool.false_ne_true (hparity.2 hodd)
    simp only [Bool.not_false, true_iff]
    omega

theorem Within.cons_plain {inside : Bool} {front rest : List Char} {c : Char}
    (h : Within inside front (c :: rest)) (hc : c ≠ quote) :
    Within inside (front ++ [c]) rest := by
  have hcount : (front ++ [c]).count quote = front.count quote := by simp [hc]
  rw [Within, hcount]
  exact h.trans (and_congr_right fun _ => List.mem_cons.trans (or_iff_right (Ne.symm hc)))

theorem Within.inside {inside : Bool} {front rest : List Char} {c : Char}
    (h : Within inside front (c :: rest)) (hc : c ≠ quote) (hinside : inside = true) :
    front.count quote % 2 = 1 ∧ quote ∈ rest := by
  obtain ⟨hodd, hmem⟩ := h.1 hinside
  exact ⟨hodd, (List.mem_cons.1 hmem).resolve_left (Ne.symm hc)⟩

theorem Within.outside {front rest : List Char} {c : Char} (h : Within false front (c :: rest)) :
    front.count quote % 2 = 0 ∨ quote ∉ rest := by
  by_cases hmem : quote ∈ rest
  · have heven : ¬front.count quote % 2 = 1 := fun hodd =>
      nomatch h.2 ⟨hodd, List.mem_cons_of_mem _ hmem⟩
    exact .inl (by omega)
  · exact .inr hmem

/-- The lexer behind a part of a text finds the placeholders that stand there. -/
theorem tokensFrom_lexFrom {inside : Bool} {front rest : List Char}
    (h : Within inside front rest) :
    tokensFrom front.length (lexFrom inside rest) =
      (List.range' front.length rest.length).filterMap (tokenAt? (front ++ rest)) := by
  induction rest generalizing inside front with
  | nil => rfl
  | cons c rest ih =>
    have hlength : (front ++ [c]).length = front.length + 1 := by simp
    have hjoin : front ++ [c] ++ rest = front ++ c :: rest := by simp
    -- the places behind this one, whatever stands here
    have hrest {inside' : Bool} (hwithin : Within inside' (front ++ [c]) rest) :
        tokensFrom (front.length + 1) (lexFrom inside' rest) =
          (List.range' (front.length + 1) rest.length).filterMap
            (tokenAt? (front ++ c :: rest)) := by
      rw [← hlength, ← hjoin]
      exact ih hwithin
    rw [List.length_cons, List.range'_succ]
    by_cases hq : c = quote
    · subst hq
      have hnone : tokenAt? (front ++ quote :: rest) front.length = none := tokenAt?_eq_none nofun
      rw [lexFrom_quote, tokensFrom, List.filterMap_cons_none hnone, hrest h.cons_quote]
    · have hwithin := h.cons_plain hq
      by_cases hm : c = '?' ∧ inside = false
      · obtain ⟨rfl, rfl⟩ := hm
        have hmark := tokenAt?_mark h.outside
        rw [tokensFrom_mark, List.filterMap_cons_some hmark, hrest hwithin]
      · have hinside : c = '?' → inside = true := fun hc =>
          eq_true_of_ne_false fun hi => hm ⟨hc, hi⟩
        have hnone : tokenAt? (front ++ c :: rest) front.length = none :=
          tokenAt?_eq_none fun hc => h.inside hq (hinside hc)
        rw [lexFrom_plain rest hq hinside, tokensFrom, List.filterMap_cons_none hnone,
          hrest hwithin]

theorem tokensFrom_lex (s : List Char) : tokensFrom 0 (lex s) = placed s := by
  have hwithin : Within false [] s := by simp [Within]
  rw [placed, List.range_eq_range']
  exact tokensFrom_lexFrom hwithin

/-! ## Order and width -/

theorem start_of_mem_tokensFrom {position : Nat} {ls : List Lexeme} {t : Token}
    (h : t ∈ tokensFrom position ls) : position ≤ t.start := by
  induction ls generalizing position with
  | nil => cases h
  | cons l ls ih =>
    cases l with
    | plain c => exact Nat.le_of_succ_le (ih h)
    | mark digits =>
      rcases List.mem_cons.1 h with rfl | h
      · exact Nat.le_refl _
      · have := ih h
        omega

/-- The placeholders stand one after the other. -/
theorem pairwise_tokensFrom (position : Nat) (ls : List Lexeme) :
    (tokensFrom position ls).Pairwise fun t u => t.stop ≤ u.start := by
  induction ls generalizing position with
  | nil => exact .nil
  | cons l ls ih =>
    cases l with
    | plain c => exact ih (position + 1)
    | mark digits => exact .cons (fun u hu => start_of_mem_tokensFrom hu) (ih _)

theorem digits_tokensFrom (position : Nat) (ls : List Lexeme) :
    (tokensFrom position ls).map Token.digits = (marks ls).map List.length := by
  induction ls generalizing position with
  | nil => rfl
  | cons l ls ih =>
    cases l with
    | plain c => exact ih (position + 1)
    | mark digits =>
      have hwidth : position + 1 + digits.length - position - 1 = digits.length := by omega
      have hdigits : (Token.mk position (position + 1 + digits.length) (number? digits)).digits
          = digits.length := hwidth
      rw [tokensFrom, List.map_cons, ih, hdigits]
      rfl

/-! ## Scanning -/

/-- The first placeholder with too many digits is the first run of digits that is too long. -/
theorem find?_placed (s : List Char) :
    ((placed s).find? fun t => digitLimit < t.digits).map Token.digits =
      ((marks (lex s)).find? fun digits => digitLimit < digits.length).map List.length := by
  have hdigits : (placed s).map Token.digits = (marks (lex s)).map List.length := by
    rw [← tokensFrom_lex, digits_tokensFrom]
  have hfind := congrArg (List.find? fun n => decide (digitLimit < n)) hdigits
  rw [List.find?_map, List.find?_map] at hfind
  exact hfind

theorem scan_eq_placed (s : String) :
    scan s = match (placed s.toList).find? fun t => digitLimit < t.digits with
      | some t => .error (.integerTooLong (some t.digits))
      | none => .ok (placed s.toList) := by
  have hfind := find?_placed s.toList
  have hplaced := tokensFrom_lex s.toList
  rw [scan, numbers, hplaced]
  cases hmarks : (marks (lex s.toList)).find? fun digits => digitLimit < digits.length with
  | some digits =>
    rw [hmarks] at hfind
    obtain ⟨t, ht, hlength⟩ := Option.map_eq_some_iff.1 hfind
    rw [ht]
    show Except.error (Fault.integerTooLong (some digits.length)) = _
    rw [← hlength]
  | none =>
    rw [hmarks] at hfind
    rw [Option.map_eq_none_iff.1 hfind]
    rfl

/-- Scanning gives the placeholders that the quotes before and after each place tell; only one with
too many digits keeps it from that. They stand one after the other, and they are those that the
pattern finds. -/
theorem scan_by_quotes (s : String) :
    (scan s = match (placed s.toList).find? fun t => digitLimit < t.digits with
      | some t => .error (.integerTooLong (some t.digits))
      | none => .ok (placed s.toList)) ∧
    (placed s.toList).Pairwise (fun t u => t.stop ≤ u.start) ∧
    (tokenPattern.findAll s.toList).filterMap tokenOf? = placed s.toList := by
  have hplaced := tokensFrom_lex s.toList
  refine ⟨scan_eq_placed s, ?_, ?_⟩
  · rw [← hplaced]
    exact pairwise_tokensFrom 0 _
  · rw [findAll_tokenPattern, hplaced]

/-- A literal with a doubled quote, and a quote that nothing closes. -/
example : placed "'a''?' = ?12 or '' = ? || '?".toList =
    [⟨9, 12, some 12⟩, ⟨21, 22, none⟩, ⟨27, 28, none⟩] := by decide

end Querywright.Placeholder
