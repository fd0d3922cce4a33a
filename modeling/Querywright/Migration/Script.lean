/-
  Migration scripts: statements with semicolons between them. A semicolon inside a quoted literal
  is text; quotes toggle, except that a quote with no quote after it opens nothing.

  `cut` keeps every character but the semicolons; `split` trims the pieces and drops blank ones.
-/
import Querywright.Placeholder

namespace Querywright.Script

/-- Put a character before the first piece. -/
def extend (c : Char) : List (List Char) → List (List Char)
  | [] => [[c]]
  | piece :: pieces => (c :: piece) :: pieces

/-- Cut a text that begins inside or outside a literal. -/
def cutFrom (inside : Bool) : List Char → List (List Char)
  | [] => [[]]
  | c :: rest =>
    if c = Placeholder.quote then extend c (cutFrom (Placeholder.opens inside rest) rest)
    else if c = ';' ∧ !inside then [] :: cutFrom inside rest
    else extend c (cutFrom inside rest)

/-- The pieces between the semicolons that separate statements. -/
def cut (s : List Char) : List (List Char) := cutFrom false s

/-- The statements of a script. -/
def split (s : String) : List String :=
  (((cut s.toList).map Text.stripChars).filter (· ≠ [])).map String.ofList

end Querywright.Script
