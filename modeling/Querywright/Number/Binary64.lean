/-
  Double-precision numbers as data: a sign, a mantissa below 2^53 and a power of two, or an
  infinity, or not a number. Finite numbers are kept in the one form that rounding produces
  (mantissa at least 2^52 unless the exponent is -1074), so equal numbers have equal form, the
  two zeros apart.

  * `ofRatio` rounds a quotient to the nearest number, a tie to the even mantissa.
  * `ofDecimal` reads `digits · 10^power` that way.
  * `truncate?` drops the fraction.
-/
namespace Querywright

/-- A double-precision number. A finite one is `± mantissa · 2^exponent`. -/
inductive Binary64 where
  | nan
  | infinite (negative : Bool)
  | finite (negative : Bool) (mantissa : Nat) (exponent : Int)
  deriving DecidableEq, Repr

namespace Binary64

/-- The least exponent. -/
def leastExponent : Int := -1074

/-- Zero with a sign. -/
def zero (negative : Bool) : Binary64 := .finite negative 0 leastExponent

/-- `2^n` for `n ≥ 0`, and 1 below. -/
def power2 (n : Int) : Nat := Nat.pow 2 n.toNat

/-- `10^n` for `n ≥ 0`, and 1 below. -/
def power10 (n : Int) : Nat := Nat.pow 10 n.toNat

/-- The greatest `l` with `2^l ≤ num / den`, for positive arguments. -/
def floorLog2 (num den : Nat) : Int :=
  let d : Int := (num.log2 : Int) - (den.log2 : Int)
  if den * power2 d ≤ num * power2 (-d) then d else d - 1

/-- The quotient of two numbers rounded to an integer, a tie to the even one. -/
def roundDiv (num den : Nat) : Nat :=
  let q := num / den
  let r := num % den
  if 2 * r < den then q else if den < 2 * r then q + 1 else q + q % 2

/-- The number nearest to `num / den`, of two nearest the one with the even mantissa. -/
def ofRatio (negative : Bool) (num den : Nat) : Binary64 :=
  if num = 0 then zero negative
  else
    let e := max (floorLog2 num den - 52) leastExponent
    let m := roundDiv (num * power2 (-e)) (den * power2 e)
    if m = power2 53 then
      if e + 1 > 971 then .infinite negative else .finite negative (power2 52) (e + 1)
    else if e > 971 then .infinite negative else .finite negative m e

/-- The number nearest to `digits · 10^power`. Powers out of every number's reach are not
computed. -/
def ofDecimal (negative : Bool) (digits : Nat) (power : Int) : Binary64 :=
  if digits = 0 then zero negative
  else if power > 400 then .infinite negative
  else if power + (digits.log2 : Int) < -1200 then zero negative
  else ofRatio negative (digits * power10 power) (power10 (-power))

/-- Numerator and denominator of the magnitude of a finite number. -/
def ratio (mantissa : Nat) (exponent : Int) : Nat × Nat :=
  (mantissa * power2 exponent, power2 (-exponent))

/-- The integer part, where there is one. -/
def truncate? : Binary64 → Option Int
  | .finite negative m e =>
    let (num, den) := ratio m e
    let n : Int := (num / den : Nat)
    some (if negative then -n else n)
  | _ => none

/-- One more than the number. -/
def addOne : Binary64 → Binary64
  | .finite negative m e =>
    let (num, den) := ratio m e
    let sum : Int := (if negative then -(num : Int) else num) + den
    ofRatio (sum < 0) sum.natAbs den
  | x => x

/-- Whether the number is a zero of either sign. -/
def isZero : Binary64 → Bool
  | .finite _ m _ => m == 0
  | _ => false

/-- Numerical equality: the zeros are equal, and not a number equals nothing. -/
def sameNumber : Binary64 → Binary64 → Bool
  | .nan, _ => false
  | _, .nan => false
  | a, b => a == b || (a.isZero && b.isZero)

/-- Whether the number is exactly the integer. -/
def isInteger (x : Binary64) (n : Int) : Bool :=
  match x with
  | .finite negative m e =>
    let (num, den) := ratio m e
    (if negative then -(num : Int) else num) == n * den
  | _ => false

end Binary64
end Querywright
