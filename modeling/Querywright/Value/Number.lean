/-
  Reading an integer from any value. Integers and truth values count as themselves, a float loses
  its fraction, a text or byte string must spell an integer.
-/
import Querywright.Fault
import Querywright.Number.Numeral
import Querywright.Value.Display

namespace Querywright.Value

/-- The literal of what was no integer, cut to 200 characters. -/
def shownNumeral (shown : String) : String := String.ofList (shown.toList.take 200)

/-- The fault of a text that spells no integer. -/
def numeralFault (shown : String) : NumeralFault → Fault
  | .malformed => .notInteger (shownNumeral shown)
  | .tooLong digits => .integerTooLong (some digits)

/-- Read the bytes as ASCII text. -/
def ofBytes (bs : List UInt8) : Except Fault Int :=
  match Numeral.readAsciiInteger (bs.map fun b => Char.ofNat b.toNat) with
  | .ok n => .ok n
  | .error e => .error (numeralFault (Text.quoteBytes (bs.take 200)) e)

/-- The integer of a value. -/
def toInteger (v : Value) : Except Fault Int :=
  match v with
  | .int n => .ok n
  | .bool b => .ok (if b then 1 else 0)
  | .float .nan => .error .integerFromNaN
  | .float x => match x.truncate? with
    | some n => .ok n
    | none => .error .integerFromInfinity
  | .text s => match readInteger s.toList with
    | .ok n => .ok n
    | .error e => .error (numeralFault v.literal e)
  | .keyword k => match readInteger k.word.toList with
    | .ok n => .ok n
    | .error e => .error (numeralFault v.literal e)
  | .bytes bs => ofBytes bs
  | .byteArray bs => ofBytes bs
  | _ => .error .unsupported

/-- The items of a value, where it can be walked through. -/
def items (v : Value) : Except Fault (List Value) :=
  match v.items? with
  | some items => .ok items
  | none => .error .unsupported

/-- A list of texts from a list of values. -/
def texts : List Value → Except Fault (List String)
  | [] => .ok []
  | v :: rest =>
    match v.asText?, texts rest with
    | some s, .ok more => .ok (s :: more)
    | _, _ => .error .unsupported

end Querywright.Value
