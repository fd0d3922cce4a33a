/-
  Equality and order of values of one family: numbers, texts, byte strings, lists, tuples and
  sets. Values of two families, and values of any other kind, have no order.

  * `equal` compares any two values. Numbers are equal by amount, a reserved word is its text.
  * `exceeds` says whether the first is greater. Lists and tuples are compared at the first place
    where they differ; a set exceeds its proper parts.
-/
import Querywright.Fault
import Querywright.Value.Key

namespace Querywright

namespace Binary64

/-- Whether a number is greater than another; not a number is never. -/
def exceeds : Binary64 → Binary64 → Bool
  | .nan, _ => false
  | _, .nan => false
  | .infinite a, .infinite b => !a && b
  | .infinite a, _ => !a
  | _, .infinite b => b
  | .finite a m e, .finite b n f =>
    let signed (negative : Bool) (k : Nat) : Int := if negative then -(k : Int) else k
    let (p, q) := ratio m e
    let (r, s) := ratio n f
    decide (signed b r * q < signed a p * s)

end Binary64

namespace Value

/-- The integer that a number of no fraction stands for. -/
def asInteger? : Value → Option Int
  | .bool b => some (if b then 1 else 0)
  | .int n => some n
  | _ => none

/-- Whether an integer is greater than a float, from the sign of the difference at the float's
scale. -/
def integerExceeds (n : Int) : Binary64 → Bool
  | .nan => false
  | .infinite negative => negative
  | .finite negative m e =>
    let (p, q) := Binary64.ratio m e
    decide ((if negative then -(p : Int) else p) < n * q)

/-- Whether a float is greater than an integer. -/
def floatExceeds (x : Binary64) (n : Int) : Bool :=
  match x with
  | .nan => false
  | .infinite negative => !negative
  | .finite negative m e =>
    let (p, q) := Binary64.ratio m e
    decide (n * q < (if negative then -(p : Int) else p))

/-- The bytes of a byte string of either kind. -/
def asBytes? : Value → Option (List UInt8)
  | .bytes bs => some bs
  | .byteArray bs => some bs
  | _ => none

mutual

/-- Whether two values are equal. -/
def equal : Value → Value → Bool
  | .list a, .list b => allEqual a b
  | .tuple a, .tuple b => allEqual a b
  | .set a, .set b => a.length == b.length && allEqual a b
  | .map a, .map b => a.length == b.length && entriesWithin a b
  | .raw a, .raw b => equal a b
  | .record k a, .record l b => k == l && allEqual a b
  | .bytes a, v => asBytes? v == some a
  | .byteArray a, v => asBytes? v == some a
  | a, b => sameKey a b

/-- Whether two lists are equal place by place. -/
def allEqual : List Value → List Value → Bool
  | [], [] => true
  | a :: as, b :: bs => equal a b && allEqual as bs
  | _, _ => false

/-- Whether every entry is one of the others, keys in any order. -/
def entriesWithin : List (Value × Value) → List (Value × Value) → Bool
  | [], _ => true
  | (k, v) :: rest, b =>
    (match Entries.get? k b with
      | some w => equal v w
      | none => false) && entriesWithin rest b

end

/-- Whether one list of numbers is greater, at the first place where they differ. -/
def bytesExceed : List UInt8 → List UInt8 → Bool
  | [], _ => false
  | _ :: _, [] => true
  | a :: as, b :: bs => if a = b then bytesExceed as bs else decide (b < a)

mutual

/-- Whether the first value is greater than the second. -/
def exceeds : Value → Value → Except Fault Bool
  | .list a, .list b => anyExceeds a b
  | .tuple a, .tuple b => anyExceeds a b
  | .set a, .set b =>
    .ok (b.length < a.length && b.all fun v => a.any (equal v))
  | .float x, .float y => .ok (x.exceeds y)
  | .float x, v =>
    match v.asInteger? with
    | some n => .ok (floatExceeds x n)
    | none => .error .unsupported
  | v, .float x =>
    match v.asInteger? with
    | some n => .ok (integerExceeds n x)
    | none => .error .unsupported
  | a, b =>
    match a.asInteger?, b.asInteger?, a.asText?, b.asText?, a.asBytes?, b.asBytes? with
    | some m, some n, _, _, _, _ => .ok (decide (n < m))
    | _, _, some s, some t, _, _ => .ok (decide (t < s))
    | _, _, _, _, some s, some t => .ok (bytesExceed s t)
    | _, _, _, _, _, _ => .error .unsupported

/-- Whether the first list is greater, at the first place where they differ. -/
def anyExceeds : List Value → List Value → Except Fault Bool
  | [], _ => .ok false
  | _ :: _, [] => .ok true
  | a :: as, b :: bs => if equal a b then anyExceeds as bs else exceeds a b

end

end Value
end Querywright
