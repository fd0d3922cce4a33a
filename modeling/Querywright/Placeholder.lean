/-
  Placeholders in SQL text: `?` takes the argument after the largest index so far, `?n` takes
  argument `n`. A `?` between single quotes is text. Quotes toggle, except that a quote with no
  quote after it opens nothing.

  * `lex` splits a text into plain characters and placeholders; `unlex (lex s) = s`.
  * `scan` lists the placeholders with their positions, `resolve` the indexes they bind to.
  * `numberBare` writes every index explicitly.
  * `offsets` are the prefix sums that place one clause's arguments after another's.
-/
import Querywright.Fault
import Querywright.Number.Numeral

namespace Querywright.Placeholder

/-- A character of the text, or a `?` with the digits that follow it. -/
inductive Lexeme where
  | plain (c : Char)
  | mark (digits : List Char)
  deriving DecidableEq, Repr

/-- The quote that delimits literals. -/
def quote : Char := '\''

/-- Whether a quoted literal is open after a quote, from whether it was open before it and the
text after it. -/
def opens (inside : Bool) (rest : List Char) : Bool :=
  !inside && rest.contains quote

/-- Split a text that begins inside or outside a literal. -/
def lexFrom (inside : Bool) : List Char → List Lexeme
  | [] => []
  | c :: rest =>
    if c = quote then .plain c :: lexFrom (opens inside rest) rest
    else if c = '?' ∧ !inside then
      let digits := rest.takeWhile Text.isDigit
      .mark digits :: (lexFrom inside rest).drop digits.length
    else .plain c :: lexFrom inside rest

/-- Split a text. -/
def lex (s : List Char) : List Lexeme := lexFrom false s

/-- The text of a lexeme. -/
def Lexeme.text : Lexeme → List Char
  | .plain c => [c]
  | .mark digits => '?' :: digits

/-- The text of a list of lexemes. -/
def unlex (ls : List Lexeme) : List Char := ls.flatMap Lexeme.text

/-- The digits of each placeholder in order. -/
def marks (ls : List Lexeme) : List (List Char) :=
  ls.filterMap fun
    | .mark digits => some digits
    | .plain _ => none

/-- The number that the digits write; a bare placeholder has none. -/
def number? (digits : List Char) : Option Nat :=
  if digits.isEmpty then none else some (Text.digitsValue digits)

/-- The placeholders' numbers, unless one has more digits than an integer is read from. -/
def numbers (s : List Char) : Except Fault (List (Option Nat)) :=
  let found := marks (lex s)
  match found.find? fun digits => digitLimit < digits.length with
  | some digits => .error (.integerTooLong (some digits.length))
  | none => .ok (found.map number?)

/-- The index of each placeholder after the largest index so far: its own number, or one more
than the largest. -/
def assign (largest : Int) : List (Option Nat) → List Int
  | [] => []
  | n? :: rest =>
    let index : Int := match n? with
      | some n => n
      | none => largest + 1
    index :: assign (max largest index) rest

/-- The largest of a number and a list of numbers. -/
def highest (start : Int) (indexes : List Int) : Int :=
  indexes.foldl max start

/-- The index that each placeholder binds to, after `start` arguments. -/
def resolve (s : String) (start : Int) : Except Fault (List Int) := do
  return assign start (← numbers s.toList)

/-- The largest index that is bound, after `start` arguments. -/
def highestIndex (s : String) (start : Int) : Except Fault Int := do
  return highest start (← resolve s start)

/-- A placeholder and its place. -/
structure Token where
  start : Nat
  stop : Nat
  number : Option Nat
  deriving DecidableEq, Repr

/-- A placeholder without a number. -/
def Token.isBare (t : Token) : Bool := t.number.isNone

/-- The placeholders of lexemes that begin at a position. -/
def tokensFrom (position : Nat) : List Lexeme → List Token
  | [] => []
  | .plain _ :: rest => tokensFrom (position + 1) rest
  | .mark digits :: rest =>
    let stop := position + 1 + digits.length
    ⟨position, stop, number? digits⟩ :: tokensFrom stop rest

/-- The placeholders of a text. -/
def scan (s : String) : Except Fault (List Token) := do
  let _ ← numbers s.toList
  return tokensFrom 0 (lex s.toList)

/-- Write the texts given for the placeholders in their places. -/
def fill : List Lexeme → List (List Char) → List Char
  | [], _ => []
  | .plain c :: rest, texts => c :: fill rest texts
  | .mark digits :: rest, [] => '?' :: digits ++ fill rest []
  | .mark _ :: rest, text :: texts => text ++ fill rest texts

/-- A placeholder with its index. -/
def indexed (index : Int) : List Char := '?' :: (toString index).toList

/-- Whether an index has too many digits to be written. -/
def tooLong (index : Int) : Bool := digitLimit < (Nat.toDigits 10 index.natAbs).length

/-- The text with every placeholder's index written out. A text without a bare placeholder is
left alone. -/
def numberBare (s : String) : Except Fault String := do
  let ns ← numbers s.toList
  if ns.any Option.isNone then
    let indexes := assign 0 ns
    if indexes.any tooLong then throw (.integerTooLong none)
    return String.ofList (fill (lex s.toList) (indexes.map indexed))
  else return s

/-- The sum of the counts before each count. -/
def offsetsFrom (total : Int) : List Int → List Int
  | [] => []
  | n :: rest => total :: offsetsFrom (total + n) rest

/-- Where each of several fragments starts, from how many arguments each binds. -/
def offsets (counts : List Int) : List Int := offsetsFrom 0 counts

end Querywright.Placeholder
