/-
  UTF-8 as a machine that reads one byte at a time. Between characters it is at `idle`; inside
  one it holds the bits so far, the number of bytes still owed and the range of the next one.
  A byte that cannot continue the character ends the malformed part before it, and is read again
  from `idle`; each malformed part is written once as `onBad`.

  * `encode` writes a text's bytes.
  * `decode []` drops malformed parts, `decode [replacement]` shows them.
-/
namespace Querywright.Text.Utf8

/-- The bytes of a text. -/
def encode (s : List Char) : List UInt8 :=
  s.flatMap String.utf8EncodeChar

/-- A character of which at least one byte has been read and at least one is owed. -/
structure Pending where
  bits : Nat
  owed : Nat
  low : Nat
  high : Nat

/-- What one byte means between characters. -/
inductive Start where
  | char (c : Char)
  | more (p : Pending)
  | bad

/-- Read a byte between characters. -/
def start (b : Nat) : Start :=
  if b < 0x80 then .char (Char.ofNat b)
  else if b < 0xC2 then .bad
  else if b < 0xE0 then .more ⟨b - 0xC0, 0, 0x80, 0xBF⟩
  else if b == 0xE0 then .more ⟨0, 1, 0xA0, 0xBF⟩
  else if b == 0xED then .more ⟨0xD, 1, 0x80, 0x9F⟩
  else if b < 0xF0 then .more ⟨b - 0xE0, 1, 0x80, 0xBF⟩
  else if b == 0xF0 then .more ⟨0, 2, 0x90, 0xBF⟩
  else if b < 0xF4 then .more ⟨b - 0xF0, 2, 0x80, 0xBF⟩
  else if b == 0xF4 then .more ⟨4, 2, 0x80, 0x8F⟩
  else .bad

/-- Read the bytes, from inside a character or between two. `owed` counts the bytes that are
owed after the next one. -/
def decodeFrom (onBad : List Char) : Option Pending → List UInt8 → List Char
  | none, [] => []
  | some _, [] => onBad
  | none, b :: rest =>
    match start b.toNat with
    | .char c => c :: decodeFrom onBad none rest
    | .more p => decodeFrom onBad (some p) rest
    | .bad => onBad ++ decodeFrom onBad none rest
  | some p, b :: rest =>
    if p.low ≤ b.toNat && b.toNat ≤ p.high then
      let bits := p.bits * 64 + (b.toNat - 0x80)
      match p.owed with
      | 0 => Char.ofNat bits :: decodeFrom onBad none rest
      | owed + 1 => decodeFrom onBad (some ⟨bits, owed, 0x80, 0xBF⟩) rest
    else
      onBad ++ match start b.toNat with
        | .char c => c :: decodeFrom onBad none rest
        | .more q => decodeFrom onBad (some q) rest
        | .bad => onBad ++ decodeFrom onBad none rest

/-- The text of the bytes, with `onBad` for every malformed part. -/
def decode (onBad : List Char) (bytes : List UInt8) : List Char :=
  decodeFrom onBad none bytes

/-- What stands for a malformed part that is shown. -/
def replacement : Char := Char.ofNat 0xFFFD

end Querywright.Text.Utf8
