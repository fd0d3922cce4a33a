/-
  White space, and trimming by it. Blank are the characters that Unicode gives a white-space,
  paragraph-separator or segment-separator direction, or the category Zs: the 29 below, the
  four information separators U+001C to U+001F among them.

  * `strip` removes blanks at both ends, `firstWord` reads up to the next blank.
  * `isBlank_of_isWhitespace`: every character that `Char.isWhitespace` accepts is blank.
-/
namespace Querywright.Text

/-- White space. -/
def isBlank (c : Char) : Bool :=
  let n := c.toNat
  (9 ≤ n && n ≤ 13) || (0x1C ≤ n && n ≤ 0x20) || n == 0x85 || n == 0xA0 || n == 0x1680 ||
    (0x2000 ≤ n && n ≤ 0x200A) || n == 0x2028 || n == 0x2029 || n == 0x202F || n == 0x205F ||
    n == 0x3000

theorem isBlank_of_isWhitespace {c : Char} (h : c.isWhitespace) : isBlank c := by
  simp only [Char.isWhitespace, Bool.or_eq_true, decide_eq_true_eq] at h
  rcases h with ((h | h) | h) | h <;> subst h <;> decide

/-- Remove the blanks at the front. -/
def stripFront (s : List Char) : List Char :=
  s.dropWhile isBlank

/-- Remove the blanks at the back. -/
def stripBack : List Char → List Char
  | [] => []
  | c :: rest =>
    match stripBack rest with
    | [] => if isBlank c then [] else [c]
    | kept => c :: kept

/-- Remove the blanks at both ends. -/
def stripChars (s : List Char) : List Char :=
  stripBack (stripFront s)

/-- Remove the blanks at both ends. -/
def strip (s : String) : String :=
  String.ofList (stripChars s.toList)

/-- Whether nothing but blanks is there. -/
def isBlankText (s : String) : Bool :=
  s.toList.all isBlank

theorem stripBack_eq_nil_iff {s : List Char} : stripBack s = [] ↔ ∀ c ∈ s, isBlank c := by
  induction s with
  | nil => simp [stripBack]
  | cons c rest ih =>
    unfold stripBack
    split
    · rename_i h
      have hr := ih.1 h
      by_cases hc : isBlank c <;> simp_all
    · rename_i h
      simp only [reduceCtorEq, List.mem_cons, forall_eq_or_imp, false_iff, not_and]
      intro _ hr
      exact h (ih.2 hr)

theorem stripChars_eq_nil_iff {s : List Char} : stripChars s = [] ↔ ∀ c ∈ s, isBlank c := by
  rw [stripChars, stripBack_eq_nil_iff, stripFront]
  constructor
  · intro h c hc
    rw [← List.takeWhile_append_dropWhile (p := isBlank) (l := s), List.mem_append] at hc
    rcases hc with hc | hc
    · exact List.all_eq_true.1 (List.all_takeWhile (p := isBlank)) c hc
    · exact h c hc
  · intro h c hc
    exact h c ((List.dropWhile_sublist _).subset hc)

theorem stripBack_concat {c : Char} (h : isBlank c = false) (s : List Char) :
    stripBack (s ++ [c]) = s ++ [c] := by
  induction s with
  | nil => exact if_neg (Bool.eq_false_iff.1 h)
  | cons x s ih =>
    rw [List.cons_append, stripBack, ih]
    cases s <;> rfl

/-- A text with no blank at either end is kept. -/
theorem stripChars_ends {first last : Char} (hfirst : isBlank first = false)
    (hlast : isBlank last = false) (s : List Char) :
    stripChars (first :: (s ++ [last])) = first :: (s ++ [last]) := by
  have hfront : stripFront (first :: (s ++ [last])) = first :: (s ++ [last]) :=
    List.dropWhile_cons_of_neg (Bool.eq_false_iff.1 hfirst)
  rw [stripChars, hfront]
  exact stripBack_concat hlast (first :: s)

/-- The first word: the text after leading blanks, up to the next blank. -/
def firstWord (s : List Char) : List Char :=
  (stripFront s).takeWhile fun c => !isBlank c

end Querywright.Text
