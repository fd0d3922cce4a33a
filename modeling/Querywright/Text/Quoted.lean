/-
  Quoted text, as it appears in messages: single quotes, unless the text holds a single quote and
  no double one. A backslash and the enclosing quote are escaped by a backslash; tab, newline and
  carriage return have short escapes; every other character that is not printable is written by
  its code point in two, four or eight hexadecimal digits. Bytes are quoted the same way after a
  `b`, with every byte outside printable ASCII in two digits.
-/
import Querywright.Text.LetterCase
import Querywright.Text.UnprintableTable

namespace Querywright.Text

/-- Whether a quoted text shows the character itself. -/
def isPrintable (c : Char) : Bool :=
  if c.toNat < 127 then 32 ≤ c.toNat else !inRanges unprintableRanges c.toNat

/-- The number in lower case hexadecimal, with at least `width` digits. -/
def hex (width n : Nat) : List Char :=
  let digits := Nat.toDigits 16 n
  List.replicate (width - digits.length) '0' ++ digits

/-- The mark that encloses the text. -/
def quoteMark (s : List Char) : Char :=
  if s.contains '\'' && !s.contains '"' then '"' else '\''

/-- One character between marks. -/
def quoteChar (mark c : Char) : List Char :=
  if c = mark || c = '\\' then ['\\', c]
  else if c = '\t' then ['\\', 't']
  else if c = '\n' then ['\\', 'n']
  else if c = '\r' then ['\\', 'r']
  else if isPrintable c then [c]
  else if c.toNat < 0x100 then '\\' :: 'x' :: hex 2 c.toNat
  else if c.toNat < 0x10000 then '\\' :: 'u' :: hex 4 c.toNat
  else '\\' :: 'U' :: hex 8 c.toNat

/-- The text in quotes. -/
def quote (s : String) : String :=
  let mark := quoteMark s.toList
  String.ofList (mark :: s.toList.flatMap (quoteChar mark) ++ [mark])

/-- One byte between marks. -/
def quoteByte (mark : Char) (b : UInt8) : List Char :=
  if b.toNat < 128 then quoteChar mark (Char.ofNat b.toNat)
  else '\\' :: 'x' :: hex 2 b.toNat

/-- The bytes in quotes, after a `b`. -/
def quoteBytes (bytes : List UInt8) : String :=
  let mark := quoteMark (bytes.map fun b => Char.ofNat b.toNat)
  String.ofList ('b' :: mark :: bytes.flatMap (quoteByte mark) ++ [mark])

/-- The bytes of a mutable byte string: quoted likewise, but a single quote is always escaped. -/
def quoteByteArray (bytes : List UInt8) : String :=
  let mark := quoteMark (bytes.map fun b => Char.ofNat b.toNat)
  String.ofList ("bytearray(b".toList ++ mark ::
    bytes.flatMap (fun b => if b.toNat = 39 then ['\\', '\''] else quoteByte mark b) ++ [mark, ')'])

end Querywright.Text
