/-
  Reading numbers from text. A numeral may use the decimal digits of any script and may stand
  between blanks; single underscores may separate digits.

  * `readInteger` reads an integer, and refuses more than `digitLimit` digits.
  * `readBinary64` reads a decimal number, an infinity or not a number.
-/
import Querywright.Number.Binary64
import Querywright.Text.Blank
import Querywright.Text.Digit
import Querywright.Text.LetterCase

namespace Querywright

/-- The most digits an integer is read from or written with. -/
def digitLimit : Nat := 4300

/-- Why a text is no integer. -/
inductive NumeralFault where
  | malformed
  | tooLong (digits : Nat)
  deriving DecidableEq, Repr

namespace Numeral

/-- White space around a numeral, within ASCII. -/
def isSpace (c : Char) : Bool :=
  c.toNat == 32 || (9 ≤ c.toNat && c.toNat ≤ 13)

/-- Write digits of every script and blanks outside ASCII as ASCII ones. Any other character
outside ASCII becomes one that no numeral holds. -/
def toAscii (s : List Char) : List Char :=
  s.map fun c =>
    if c.toNat < 127 then c
    else if Text.isBlank c then ' '
    else match Text.digitValue? c with
      | some d => Nat.digitChar d
      | none => '?'

/-- Remove the white space at both ends. -/
def trim (s : List Char) : List Char :=
  ((s.dropWhile isSpace).reverse.dropWhile isSpace).reverse

/-- The sign and the rest. -/
def cutSign : List Char → Bool × List Char
  | '+' :: rest => (false, rest)
  | '-' :: rest => (true, rest)
  | s => (false, s)

/-- Remove the underscores when each stands between two digits; `after` says whether a digit
came last. -/
def joinDigits (after : Bool) : List Char → Option (List Char)
  | [] => some []
  | '_' :: rest =>
    match rest with
    | d :: _ => if after && d.isDigit then joinDigits false rest else none
    | [] => none
  | c :: rest => (joinDigits c.isDigit rest).map (c :: ·)

/-- Read an integer from ASCII text. -/
def readAsciiInteger (s : List Char) : Except NumeralFault Int :=
  let (negative, body) := cutSign (s.dropWhile isSpace)
  let run := body.takeWhile fun c => c.isDigit || c = '_'
  match joinDigits false run with
  | none => .error .malformed
  | some digits =>
    if digits.isEmpty then .error .malformed
    else if digitLimit < digits.length then .error (.tooLong digits.length)
    else if (body.drop run.length).all isSpace then
      let n : Int := Text.digitsValue digits
      .ok (if negative then -n else n)
    else .error .malformed

/-- The digits before and after the point, the rest, and whether there was a digit. -/
def cutFraction (s : List Char) : List Char × List Char × List Char :=
  let whole := s.takeWhile Char.isDigit
  match s.drop whole.length with
  | '.' :: rest =>
    let part := rest.takeWhile Char.isDigit
    (whole, part, rest.drop part.length)
  | rest => (whole, [], rest)

/-- The power of ten after an exponent mark; no mark is power zero. -/
def readExponent : List Char → Option Int
  | [] => some 0
  | e :: rest =>
    if e = 'e' || e = 'E' then
      let (negative, digits) := cutSign rest
      if digits.isEmpty || !digits.all Char.isDigit then none
      else
        let n : Int := Text.digitsValue digits
        some (if negative then -n else n)
    else none

/-- Read a number without its sign. -/
def readMagnitude (negative : Bool) (s : List Char) : Option Binary64 :=
  let word := String.ofList (s.map Char.toLower)
  if word = "inf" || word = "infinity" then some (.infinite negative)
  else if word = "nan" then some .nan
  else
    let (whole, part, rest) := cutFraction s
    if whole.isEmpty && part.isEmpty then none
    else (readExponent rest).map fun power =>
      Binary64.ofDecimal negative (Text.digitsValue (whole ++ part)) (power - part.length)

end Numeral

/-- Read an integer. -/
def readInteger (s : List Char) : Except NumeralFault Int :=
  Numeral.readAsciiInteger (Numeral.toAscii s)

/-- Read a number. -/
def readBinary64 (s : List Char) : Option Binary64 :=
  let (negative, body) := Numeral.cutSign (Numeral.trim (Numeral.toAscii s))
  (Numeral.joinDigits false body).bind (Numeral.readMagnitude negative)

end Querywright
