/-
  Form encoding of options: `name=value` pairs joined by `&`, a space as `+`, and every byte that
  is not safe as `%` and two hexadecimal digits.

  * `encodePairs` writes options, `decodePairs` reads them. A pair without a value is dropped, and
    of several pairs with one name the first counts.
  * Bytes that are not UTF-8 are read as the replacement character.
-/
import Querywright.Text.Basic
import Querywright.Text.Utf8

namespace Querywright.Form

/-- A byte that is written as itself. -/
def isSafe (b : UInt8) : Bool :=
  let c := Char.ofNat b.toNat
  b.toNat < 128 && (c.isAlphanum || c = '_' || c = '.' || c = '-' || c = '~' || c = '*')

/-- An upper case hexadecimal digit. -/
def hexDigit (n : Nat) : Char := (Nat.digitChar n).toUpper

/-- One byte. -/
def encodeByte (b : UInt8) : List Char :=
  if b.toNat = 32 then ['+']
  else if isSafe b then [Char.ofNat b.toNat]
  else ['%', hexDigit (b.toNat / 16), hexDigit (b.toNat % 16)]

/-- A name or a value. -/
def encode (s : List Char) : List Char :=
  (Text.Utf8.encode s).flatMap encodeByte

/-- Options as text. -/
def encodePairs (pairs : List (String × String)) : String :=
  "&".intercalate (pairs.map fun (name, value) =>
    String.ofList (encode name.toList ++ '=' :: encode value.toList))

/-- The value of a hexadecimal digit. -/
def hexValue? (c : Char) : Option Nat :=
  if c.isDigit then some (c.toNat - 48)
  else if 'a' ≤ c ∧ c ≤ 'f' then some (c.toNat - 87)
  else if 'A' ≤ c ∧ c ≤ 'F' then some (c.toNat - 55)
  else none

/-- The bytes of ASCII text with percent escapes; a percent sign that begins no escape is a byte
of its own. -/
def percentBytes : List Char → List UInt8
  | [] => []
  | '%' :: h :: l :: rest =>
    match hexValue? h, hexValue? l with
    | some a, some b => UInt8.ofNat (16 * a + b) :: percentBytes rest
    | _, _ => UInt8.ofNat 37 :: percentBytes (h :: l :: rest)
  | c :: rest => UInt8.ofNat c.toNat :: percentBytes rest

/-- The text of ASCII text with percent escapes. -/
def decodeRun (run : List Char) : List Char :=
  Text.Utf8.decode [Text.Utf8.replacement] (percentBytes run)

/-- Read a text in which each run of ASCII is decoded on its own; `run` is the run so far, its
last character first. -/
def decodeRuns (run : List Char) : List Char → List Char
  | [] => decodeRun run.reverse
  | c :: rest =>
    if c.toNat < 128 then decodeRuns (c :: run) rest
    else decodeRun run.reverse ++ c :: decodeRuns [] rest

/-- Read a name or a value. -/
def decode (s : List Char) : List Char :=
  decodeRuns [] (s.map fun c => if c = '+' then ' ' else c)

/-- The pair of a part of the text, when it has a value. -/
def decodePair (part : List Char) : Option (String × String) :=
  match Text.cutAtFirst '=' part with
  | (name, some value) =>
    if value.isEmpty then none
    else some (String.ofList (decode name), String.ofList (decode value))
  | _ => none

/-- Keep the first pair of each name that has not been seen. -/
def firstOfEach (seen : List String) : List (String × String) → List (String × String)
  | [] => []
  | p :: rest =>
    if seen.contains p.1 then firstOfEach seen rest else p :: firstOfEach (p.1 :: seen) rest

/-- Options from text. -/
def decodePairs (s : List Char) : List (String × String) :=
  firstOfEach [] ((Text.cutAtEvery '&' s).filterMap decodePair)

end Querywright.Form
