/-
  Decimal text of double-precision numbers.

  * `shortest` finds the fewest digits that read back as the number; of two such decimals the
    nearer one, and the even one on a tie.
  * `text` writes them: positionally from 10^-4 up to below 10^16, with a point always, and
    otherwise with an exponent of at least two digits.
  * `fixed2` writes exactly two decimals, rounding the exact value, a tie to the even digit.
-/
import Querywright.Number.Binary64

namespace Querywright.Binary64

/-- The decimal digits of a number. -/
def digitsOf (n : Nat) : List Char := Nat.toDigits 10 n

/-- The `k` with `10^(k-1) ≤ num / den < 10^k`, for a positive number in reach. -/
def decimalPoint (num den : Nat) : Int :=
  if den ≤ num then (digitsOf (num / den)).length
  else match (List.range 330).find? fun (j : Nat) => den ≤ num * power10 (j + 1) with
    | some j => -(j : Int)
    | none => -330

/-- Drop trailing zeros: the digits and the power of ten that replaces them. -/
def dropZeros : Nat → Nat → Int → Nat × Int
  | 0, digits, power => (digits, power)
  | fuel + 1, digits, power =>
    if digits % 10 = 0 ∧ digits ≠ 0 then dropZeros fuel (digits / 10) (power + 1)
    else (digits, power)

/-- The decimal of `n` digits next to the magnitude that reads back as it, if there is one. -/
def readsBackWith (m : Nat) (e : Int) (n : Nat) : Option (Nat × Int) :=
  let (num, den) := ratio m e
  let power := decimalPoint num den - n
  let top := num * power10 (-power)
  let bottom := den * power10 power
  let low := top / bottom
  let hits (d : Nat) : Bool := ofDecimal false d power == .finite false m e
  match hits low, hits (low + 1) with
  | true, true => some (roundDiv top bottom, power)
  | true, false => some (low, power)
  | false, true => some (low + 1, power)
  | false, false => none

/-- The fewest digits that read back as the magnitude, with their power of ten. -/
def shortest (m : Nat) (e : Int) : Nat × Int :=
  match (List.range 17).findSome? fun n => readsBackWith m e (n + 1) with
  | some (digits, power) => dropZeros 20 digits power
  | none => (m, e)

/-- Digits with a point before the last `places`. -/
def withPoint (digits : List Char) (places : Nat) : List Char :=
  let padded := List.replicate (places + 1 - digits.length) '0' ++ digits
  padded.take (padded.length - places) ++ '.' :: padded.drop (padded.length - places)

/-- The exponent part: sign and at least two digits. -/
def exponentText (n : Int) : List Char :=
  let digits := digitsOf n.natAbs
  'e' :: (if n < 0 then '-' else '+') :: List.replicate (2 - digits.length) '0' ++ digits

/-- The text of a magnitude. -/
def magnitudeText (m : Nat) (e : Int) : List Char :=
  if m = 0 then ['0', '.', '0']
  else
    let (digits, power) := shortest m e
    let ds := digitsOf digits
    let leading := power + ds.length - 1
    if -4 ≤ leading ∧ leading < 16 then
      if 0 ≤ power then ds ++ List.replicate power.toNat '0' ++ ['.', '0']
      else withPoint ds (-power).toNat
    else
      match ds with
      | [] => []
      | [d] => d :: exponentText leading
      | d :: rest => d :: '.' :: rest ++ exponentText leading

/-- The text of a number: the fewest digits that read back as it. -/
def text : Binary64 → String
  | .nan => "nan"
  | .infinite negative => if negative then "-inf" else "inf"
  | .finite negative m e => String.ofList ((if negative then ['-'] else []) ++ magnitudeText m e)

/-- The text with two decimals. -/
def fixed2 : Binary64 → String
  | .nan => "nan"
  | .infinite negative => if negative then "-inf" else "inf"
  | .finite negative m e =>
    let (num, den) := ratio m e
    String.ofList ((if negative then ['-'] else [])
      ++ withPoint (digitsOf (roundDiv (num * 100) den)) 2)

end Querywright.Binary64
