/-
  Upper and lower case of a whole text, after Unicode's full case mapping: one character may
  become several, and a capital sigma at the end of a word becomes `ς`. Letters that match
  regardless of case are compared through `foldLetter`, which knows the four characters outside
  ASCII that stand for an ASCII letter.
-/
import Querywright.Text.CaseTable

namespace Querywright.Text

/-- Whether the code point lies in one of the ranges. -/
def inRanges (ranges : List (Nat × Nat)) (n : Nat) : Bool :=
  ranges.any fun r => r.1 ≤ n && n ≤ r.2

/-- Apply the run that holds the character, if one does. -/
def shiftBy (runs : List CaseRun) (c : Char) : Char :=
  let n := c.toNat
  match runs.find? fun r => r.first ≤ n && n ≤ r.last && (n - r.first) % r.step == 0 with
  | some r => Char.ofNat (if r.up then n + r.amount else n - r.amount)
  | none => c

/-- Lower case of one character, away from the final sigma rule. -/
def lowerChar (c : Char) : List Char :=
  if c.toNat < 128 then [c.toLower]
  else if c.toNat == 0x130 then ['i', Char.ofNat 0x307]
  else [shiftBy lowerRuns c]

/-- Upper case of one character. -/
def upperChar (c : Char) : List Char :=
  if c.toNat < 128 then [c.toUpper]
  else match upperExpansions.lookup c.toNat with
    | some code => code.map Char.ofNat
    | none => [shiftBy upperRuns c]

/-- Whether the final sigma rule looks past the character. -/
def isCaseIgnorable (c : Char) : Bool :=
  inRanges caseIgnorableRanges c.toNat

/-- Whether the character is a letter with case for the final sigma rule. -/
def isCased (c : Char) : Bool :=
  inRanges casedRanges c.toNat

/-- Whether the next character that is not ignorable carries case. -/
def caseFollows : List Char → Bool
  | [] => false
  | c :: rest => if isCaseIgnorable c then caseFollows rest else isCased c

/-- Lower case of a text; `inWord` says whether the last character before it that is not
ignorable carries case. -/
def lowerFrom (inWord : Bool) : List Char → List Char
  | [] => []
  | c :: rest =>
    (if c.toNat == 0x3A3 then [Char.ofNat (if inWord && !caseFollows rest then 0x3C2 else 0x3C3)]
      else lowerChar c)
      ++ lowerFrom (if isCaseIgnorable c then inWord else isCased c) rest

/-- Lower case of a text. -/
def lower (s : List Char) : List Char :=
  lowerFrom false s

/-- Upper case of a text. -/
def upper (s : List Char) : List Char :=
  s.flatMap upperChar

/-- The letter under which a character is compared when case does not matter: lower case for
ASCII, and `s`, `k`, `i` for the long s, the Kelvin sign, the dotted capital and the dotless
small i. Every other character stands for itself. -/
def foldLetter (c : Char) : Char :=
  if c.toNat < 128 then c.toLower
  else if c.toNat == 0x17F then 's'
  else if c.toNat == 0x212A then 'k'
  else if c.toNat == 0x130 || c.toNat == 0x131 then 'i'
  else c

end Querywright.Text
