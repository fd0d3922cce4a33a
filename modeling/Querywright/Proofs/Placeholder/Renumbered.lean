/-
  What `numberBare` keeps of a text.

  * `between` gives the parts of a text before, between and after its placeholders;
    `between_relabel`: other digits at the placeholders leave them as they are.
  * `numberBare_keeps_meaning`: only placeholders change, each into one with a number, and they
    bind what they bound before, now wherever the text stands.
-/
import Querywright.Proofs.Placeholder.Positions

namespace Querywright.Placeholder

open Text

/-! ## The text between placeholders -/

/-- The parts of a text before, between and after placeholders, from a position on. -/
def between (s : List Char) (position : Nat) : List Token → List (List Char)
  | [] => [s.drop position]
  | t :: tokens => (s.drop position).take (t.start - position) :: between s t.stop tokens

/-- The characters between placeholders, after some characters. -/
def gaps (pending : List Char) : List Lexeme → List (List Char)
  | [] => [pending]
  | .plain c :: rest => gaps (pending ++ [c]) rest
  | .mark _ :: rest => pending :: gaps [] rest

theorem between_tokensFrom (front pending : List Char) (ls : List Lexeme) :
    between (front ++ (pending ++ unlex ls)) front.length
      (tokensFrom (front.length + pending.length) ls) = gaps pending ls := by
  induction ls generalizing front pending with
  | nil => simp [tokensFrom, between, gaps]
  | cons l rest ih =>
    cases l with
    | plain c =>
      have h := ih front (pending ++ [c])
      rw [List.length_append, List.length_singleton, List.append_assoc] at h
      exact h
    | mark digits =>
      have h := ih (front ++ pending ++ '?' :: digits) []
      have hstop : (front ++ pending ++ '?' :: digits).length
          = front.length + pending.length + 1 + digits.length := by
        simp only [List.length_append, List.length_cons]
        omega
      have htext : front ++ (pending ++ unlex (.mark digits :: rest))
          = front ++ pending ++ '?' :: digits ++ ([] ++ unlex rest) := by
        simp [Lexeme.text]
      have hgap : ((front ++ (pending ++ unlex (.mark digits :: rest))).drop front.length).take
          (front.length + pending.length - front.length) = pending := by
        rw [Nat.add_sub_cancel_left, List.drop_left, List.take_left]
      rw [tokensFrom, between, hgap, htext, gaps, ← h, hstop]
      rfl

theorem gaps_relabel (pending : List Char) (ls : List Lexeme) (ds : List (List Char)) :
    gaps pending (relabel ls ds) = gaps pending ls := by
  induction ls generalizing pending ds with
  | nil => rfl
  | cons l rest ih =>
    cases l with
    | plain c => exact ih (pending ++ [c]) ds
    | mark digits =>
      cases ds with
      | nil => exact congrArg (pending :: ·) (ih [] [])
      | cons d ds => exact congrArg (pending :: ·) (ih [] ds)

theorem between_lex (s : List Char) : between s 0 (tokensFrom 0 (lex s)) = gaps [] (lex s) := by
  have h := between_tokensFrom [] [] (lex s)
  rw [List.nil_append, List.nil_append, unlex_lex] at h
  exact h

theorem lex_relabel {s : List Char} {ds : List (List Char)}
    (hd : ∀ d ∈ ds, ∀ c ∈ d, isDigit c = true) :
    lex (unlex (relabel (lex s) ds)) = relabel (lex s) ds :=
  lexFrom_unlex (lexed_relabel (lexed_lexFrom false s) hd)

/-- Other digits at the placeholders leave the text between them as it is. -/
theorem between_relabel {s : List Char} {ds : List (List Char)}
    (hd : ∀ d ∈ ds, ∀ c ∈ d, isDigit c = true) :
    between (unlex (relabel (lex s) ds)) 0 (tokensFrom 0 (lex (unlex (relabel (lex s) ds))))
      = between s 0 (tokensFrom 0 (lex s)) := by
  rw [between_lex, between_lex, lex_relabel hd, gaps_relabel]

/-! ## Renumbering -/

theorem scan_of_numbers {s : String} {ns : List (Option Nat)} (h : numbers s.toList = .ok ns) :
    scan s = .ok (tokensFrom 0 (lex s.toList)) ∧
      (tokensFrom 0 (lex s.toList)).map Token.number = ns := by
  refine ⟨?_, ?_⟩
  · rw [scan, h]
    rfl
  · rw [number_tokensFrom, (numbers_eq_ok.1 h).2]

/-- A text whose placeholders all have numbers is left alone. -/
theorem numberBare_of_numbered {t : String} {is : List Nat}
    (h : numbers t.toList = .ok (is.map some)) : numberBare t = .ok t := by
  have hnone : ¬(is.map some).any Option.isNone = true := by simp
  rw [numberBare, h, ok_bind, if_neg hnone]
  rfl

/-- Writing out the indexes of a text changes nothing but its placeholders, of which there are as
many as before. Each has a number now. Wherever the text stands they bind what they bound where it
stood alone, so the largest index is the same, and to write them out again changes nothing. -/
theorem numberBare_keeps_meaning {s t : String} (h : numberBare s = .ok t) :
    (∃ before after, scan s = .ok before ∧ scan t = .ok after ∧ after.length = before.length ∧
      between t.toList 0 after = between s.toList 0 before ∧
      ∀ token ∈ after, token.isBare = false) ∧
    (∃ indexes, resolve s 0 = .ok indexes ∧ ∀ start, resolve t start = .ok indexes) ∧
    (∃ largest, highestIndex s 0 = .ok largest ∧ highestIndex t 0 = .ok largest) ∧
    numberBare t = .ok t := by
  obtain ⟨is, ds, hwritten⟩ := numberBare_eq_ok h
  have hs := hwritten.resolved
  have ht := hwritten.resolve
  obtain ⟨ns, hns, hassign⟩ := resolve_eq_ok.1 hs
  obtain ⟨hscan, hnumbers⟩ := scan_of_numbers hns
  obtain ⟨hscan', hnumbers'⟩ := scan_of_numbers hwritten.numbers
  refine ⟨⟨_, _, hscan, hscan', ?_, ?_, ?_⟩, ⟨_, hs, ht⟩, ⟨_, highestIndex_eq_ok.2 ⟨_, hs, rfl⟩,
    highestIndex_eq_ok.2 ⟨_, ht 0, rfl⟩⟩, numberBare_of_numbered hwritten.numbers⟩
  · have hlength := congrArg List.length hassign
    rw [length_assign, List.length_map, ← hnumbers, List.length_map] at hlength
    have hlength' := congrArg List.length hnumbers'
    rw [List.length_map, List.length_map] at hlength'
    omega
  · rw [hwritten.text]
    exact between_relabel hwritten.digits
  · intro token hmem
    have hnumber := List.mem_map_of_mem (f := Token.number) hmem
    rw [hnumbers'] at hnumber
    obtain ⟨n, -, hn⟩ := List.mem_map.1 hnumber
    rw [Token.isBare, ← hn]
    rfl

/-- Bare, numbered and zero-padded placeholders behind a literal and an unclosed quote. -/
theorem numberBare_keeps_meaning_mixed :
    numberBare "a = ? or '?' = ?007 or b = ? and '?" = .ok "a = ?1 or '?' = ?7 or b = ?8 and '?9" ∧
    (∃ indexes, resolve "a = ? or '?' = ?007 or b = ? and '?" 0 = .ok indexes ∧
      ∀ start, resolve "a = ?1 or '?' = ?7 or b = ?8 and '?9" start = .ok indexes) := by
  have h : numberBare "a = ? or '?' = ?007 or b = ? and '?"
      = .ok "a = ?1 or '?' = ?7 or b = ?8 and '?9" := by rfl
  exact ⟨h, (numberBare_keeps_meaning h).2.1⟩

end Querywright.Placeholder
