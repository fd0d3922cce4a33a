/-
  Texts that may stand for each other.

  * `Interchangeable a b`: wherever `a` stands in a text, `b` may stand there instead, and the
    placeholders stay what they are.
  * `Interchangeable.word`: words without a quote or a question mark may be left out where no digit
    follows them.
-/
import Querywright.Proofs.Placeholder.Numbering

namespace Querywright.Placeholder

open Text

/-- In any text the one may stand for the other: the placeholders are the same. -/
def Interchangeable (a b : List Char) : Prop :=
  ∀ inside front rest, marks (lexFrom inside (front ++ a ++ rest))
    = marks (lexFrom inside (front ++ b ++ rest))

/-- The text begins, and with no digit. -/
def Headed (s : List Char) : Prop := ∃ c rest, s = c :: rest ∧ isDigit c = false

theorem Headed.append {a : List Char} (h : Headed a) (b : List Char) : Headed (a ++ b) := by
  obtain ⟨c, rest, rfl, hc⟩ := h
  exact ⟨c, rest ++ b, rfl, hc⟩

/-! ## Leaving words out -/

/-- The digits of a placeholder are those before a text that begins with none. -/
theorem takeWhile_append_headed (front : List Char) {s : List Char} (h : Headed s) :
    (front ++ s).takeWhile isDigit = front.takeWhile isDigit := by
  obtain ⟨c, rest, rfl, hc⟩ := h
  induction front with
  | nil => simp [hc]
  | cons d front ih =>
    rw [List.cons_append, List.takeWhile_cons, List.takeWhile_cons, ih]

theorem marks_mark (s : List Char) :
    marks (lexFrom false ('?' :: s)) = s.takeWhile isDigit :: marks (lexFrom false s) := by
  have hrest : marks (lexFrom false s) = marks (lexFrom false (s.dropWhile isDigit)) := by
    conv => lhs; rw [← List.takeWhile_append_dropWhile (p := isDigit) (l := s)]
    rw [lexFrom_digits false _ _ fun c hc => isDigit_of_mem_takeWhile hc, marks_append]
    simp [marks]
  rw [hrest, lexFrom_mark]
  rfl

theorem marks_quote (inside : Bool) (s : List Char) :
    marks (lexFrom inside (quote :: s)) = marks (lexFrom (opens inside s) s) := by
  rw [lexFrom_quote]
  rfl

theorem marks_plain_cons {inside : Bool} {c : Char} (s : List Char) (hq : c ≠ quote)
    (hm : c = '?' → inside = true) :
    marks (lexFrom inside (c :: s)) = marks (lexFrom inside s) := by
  rw [lexFrom_plain s hq hm]
  rfl

theorem marks_word (inside : Bool) {word : List Char} (rest : List Char) (hq : quote ∉ word)
    (hm : '?' ∉ word) : marks (lexFrom inside (word ++ rest)) = marks (lexFrom inside rest) := by
  induction word with
  | nil => rfl
  | cons c word ih =>
    rw [List.mem_cons, not_or] at hq hm
    rw [List.cons_append, marks_plain_cons _ (Ne.symm hq.1) fun h => absurd h.symm hm.1]
    exact ih hq.2 hm.2

/-- The induction is on the text before the words: none of its quotes and placeholders sees them. -/
theorem marks_insert (inside : Bool) (front : List Char) {word rest : List Char}
    (hq : quote ∉ word) (hm : '?' ∉ word) (hword : Headed word) (hrest : Headed rest) :
    marks (lexFrom inside (front ++ (word ++ rest))) = marks (lexFrom inside (front ++ rest)) := by
  induction front generalizing inside with
  | nil => exact marks_word inside rest hq hm
  | cons c front ih =>
    rw [List.cons_append, List.cons_append]
    by_cases hc : c = quote
    · have hopens : opens inside (front ++ (word ++ rest)) = opens inside (front ++ rest) := by
        rw [opens, opens, Bool.eq_iff_iff]
        simp [hq]
      rw [hc, marks_quote, marks_quote, hopens, ih]
    · by_cases hmark : c = '?' ∧ inside = false
      · obtain ⟨rfl, rfl⟩ := hmark
        rw [marks_mark, marks_mark, takeWhile_append_headed front (hword.append rest),
          takeWhile_append_headed front hrest, ih]
      · have hinside : c = '?' → inside = true := by
          intro h
          cases inside with
          | true => rfl
          | false => exact absurd ⟨h, rfl⟩ hmark
        rw [marks_plain_cons _ hc hinside, marks_plain_cons _ hc hinside, ih]

/-! ## Texts that may stand for each other -/

namespace Interchangeable

variable {a b c d : List Char}

theorem refl (a : List Char) : Interchangeable a a := fun _ _ _ => rfl

theorem symm (h : Interchangeable a b) : Interchangeable b a := fun inside front rest =>
  (h inside front rest).symm

theorem trans (hab : Interchangeable a b) (hbc : Interchangeable b c) : Interchangeable a c :=
  fun inside front rest => (hab inside front rest).trans (hbc inside front rest)

theorem append (hab : Interchangeable a b) (hcd : Interchangeable c d) :
    Interchangeable (a ++ c) (b ++ d) := by
  intro inside front rest
  calc marks (lexFrom inside (front ++ (a ++ c) ++ rest))
    _ = marks (lexFrom inside (front ++ a ++ (c ++ rest))) := by simp only [List.append_assoc]
    _ = marks (lexFrom inside ((front ++ b) ++ c ++ rest)) := by
        rw [hab inside front (c ++ rest)]
        simp only [List.append_assoc]
    _ = marks (lexFrom inside (front ++ (b ++ d) ++ rest)) := by
        rw [hcd inside (front ++ b) rest]
        simp only [List.append_assoc]

theorem marks_eq (h : Interchangeable a b) : marks (lex a) = marks (lex b) := by
  have := h false [] []
  rwa [List.nil_append, List.nil_append, List.append_nil, List.append_nil] at this

/-- Words may be left out before a text that begins with no digit. -/
theorem word {w r : List Char} (hq : quote ∉ w) (hm : '?' ∉ w) (hw : Headed w) (hr : Headed r) :
    Interchangeable (w ++ r) r := by
  intro inside front rest
  rw [List.append_assoc, List.append_assoc, List.append_assoc front r rest]
  exact marks_insert inside front hq hm hw (hr.append rest)

end Interchangeable

end Querywright.Placeholder
