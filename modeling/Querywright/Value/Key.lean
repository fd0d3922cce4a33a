/-
  Keys of maps. Two keys are the same when they are numerically equal (true is one, false is
  zero), the same text (a reserved word is its SQL word), or made of the same parts. A map keeps
  the place of a key's first entry and the value of its last.
-/
import Querywright.Value.Basic

namespace Querywright

namespace Value

/-- Numeric equality with an integer. -/
def isNumber (n : Int) : Value → Bool
  | .bool b => (if b then 1 else 0) == n
  | .int m => m == n
  | .float x => x.isInteger n
  | _ => false

mutual

/-- Whether two values are the same key. -/
def sameKey : Value → Value → Bool
  | .null, .null => true
  | .bool b, v => isNumber (if b then 1 else 0) v
  | .int n, v => isNumber n v
  | .float x, .float y => x.sameNumber y
  | .float x, .int n => x.isInteger n
  | .float x, .bool b => x.isInteger (if b then 1 else 0)
  | .text s, v => v.asText? == some s
  | .keyword k, v => v.asText? == some k.word
  | .bytes a, .bytes b => a == b
  | .tuple a, .tuple b => sameKeys a b
  | .raw a, .raw b => sameKey a b
  | .record k a, .record l b => k == l && sameKeys a b
  | _, _ => false

/-- Whether two lists hold the same keys in the same places. -/
def sameKeys : List Value → List Value → Bool
  | [], [] => true
  | a :: as, b :: bs => sameKey a b && sameKeys as bs
  | _, _ => false

end

mutual

/-- Whether the value can be a key: lists, sets, maps and mutable byte strings cannot, nor can
what holds one. -/
def isKey : Value → Bool
  | .byteArray _ => false
  | .list _ => false
  | .set _ => false
  | .map _ => false
  | .tuple items => areKeys items
  | .raw content => isKey content
  | .record kind fields => kind != .ssl && areKeys fields
  | _ => true

/-- Whether all values can be keys. -/
def areKeys : List Value → Bool
  | [] => true
  | v :: rest => isKey v && areKeys rest

end

end Value

namespace Entries

/-- The value at a key. -/
def get? (key : Value) : Entries → Option Value
  | [] => none
  | (k, v) :: rest => if k.sameKey key then some v else get? key rest

/-- The value at a text key. -/
def field? (name : String) (entries : Entries) : Option Value :=
  get? (.text name) entries

/-- Whether the key is there. -/
def has (key : Value) (entries : Entries) : Bool :=
  (get? key entries).isSome

/-- Put a value at a key, in the place of the first entry with that key. -/
def put (key value : Value) : Entries → Entries
  | [] => [(key, value)]
  | (k, v) :: rest => if k.sameKey key then (k, value) :: rest else (k, v) :: put key value rest

/-- The entries of both, the later value at a common key. -/
def merge (first second : Entries) : Entries :=
  second.foldl (fun entries e => put e.1 e.2 entries) first

/-- A map from a list of entries with possibly repeated keys. -/
def ofList (entries : List (Value × Value)) : Entries :=
  merge [] entries

/-- The keys in order. -/
def keys (entries : Entries) : List Value := entries.map Prod.fst

/-- The values in order. -/
def values (entries : Entries) : List Value := entries.map Prod.snd

/-- Whether both have the same keys, in any order. -/
def sameKeySet (a b : Entries) : Bool :=
  a.length == b.length && a.all fun e => has e.1 b

end Entries
end Querywright
