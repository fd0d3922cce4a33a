/-
  Values as callers give them: the parts of a descriptor and the values bound by a statement.
  Nothing about a value is checked before the clause that uses it reads it, so a value may have
  any shape in any place.

  * `Keyword` is a reserved word that is also a text: its payload is the SQL word, its display
    names its family too.
  * `RecordKind` lists the records: the descriptors, a condition set, and the SSL settings.
  * `Value.truth` says which values count as given: not null, false, zero or empty.
-/
import Querywright.Number.Binary64

namespace Querywright

/-- How many rows of a result are collected. -/
inductive FetchMode where
  | none
  | one
  | all
  deriving DecidableEq, Repr

/-- Sort direction. -/
inductive Direction where
  | ascending
  | descending
  deriving DecidableEq, Repr

/-- How a joined table is matched. -/
inductive JoinKind where
  | inner
  | left
  | cross
  deriving DecidableEq, Repr

/-- What happens on a uniqueness conflict. -/
inductive ConflictAction where
  | rollback
  | abort
  | fail
  | ignore
  | replace
  deriving DecidableEq, Repr

/-- A reserved word. -/
inductive Keyword where
  | fetch (mode : FetchMode)
  | order (direction : Direction)
  | join (kind : JoinKind)
  | conflict (action : ConflictAction)
  deriving DecidableEq, Repr

/-- The SQL word of a fetch mode. -/
def FetchMode.word : FetchMode → String
  | .none => "NONE"
  | .one => "ONE"
  | .all => "ALL"

namespace Keyword

/-- The SQL word. -/
def word : Keyword → String
  | .fetch mode => mode.word
  | .order .ascending => "ASC"
  | .order .descending => "DESC"
  | .join .inner => "INNER"
  | .join .left => "LEFT"
  | .join .cross => "CROSS"
  | .conflict .rollback => "ROLLBACK"
  | .conflict .abort => "ABORT"
  | .conflict .fail => "FAIL"
  | .conflict .ignore => "IGNORE"
  | .conflict .replace => "REPLACE"

/-- The family of words. -/
def family : Keyword → String
  | .fetch _ => "FetchType"
  | .order _ => "OrderType"
  | .join _ => "JoinType"
  | .conflict _ => "ConflictType"

/-- Family and word. -/
def display (k : Keyword) : String := k.family ++ "." ++ k.word

/-- Every reserved word. -/
def all : List Keyword :=
  [.fetch .none, .fetch .one, .fetch .all, .order .ascending, .order .descending,
    .join .inner, .join .left, .join .cross, .conflict .rollback, .conflict .abort,
    .conflict .fail, .conflict .ignore, .conflict .replace]

/-- The reserved word with that display. -/
def ofDisplay? (s : String) : Option Keyword :=
  all.find? fun k => k.display == s

end Keyword

/-- The kinds of record. -/
inductive RecordKind where
  | conditions
  | join
  | selectOne
  | selectAll
  | upsert
  | insert
  | update
  | delete
  | createTable
  | dropTable
  | ssl
  deriving DecidableEq, Repr

/-- A value. A record holds its fields in the order that its kind declares; a builder holds the
select record it has built. -/
inductive Value where
  | null
  | bool (b : Bool)
  | int (n : Int)
  | float (x : Binary64)
  | text (s : String)
  | bytes (bs : List UInt8)
  | byteArray (bs : List UInt8)
  | list (items : List Value)
  | tuple (items : List Value)
  | set (items : List Value)
  | map (entries : List (Value × Value))
  | raw (content : Value)
  | keyword (k : Keyword)
  | record (kind : RecordKind) (fields : List Value)
  | builder (options : Value)

/-- A map as its entries in insertion order. -/
abbrev Entries := List (Value × Value)

namespace Value

instance : Inhabited Value := ⟨.null⟩

/-- Whether the value counts as given. -/
def truth : Value → Bool
  | .null => false
  | .bool b => b
  | .int n => n != 0
  | .float x => !x.isZero
  | .text s => s != ""
  | .bytes bs => !bs.isEmpty
  | .byteArray bs => !bs.isEmpty
  | .list items => !items.isEmpty
  | .tuple items => !items.isEmpty
  | .set items => !items.isEmpty
  | .map entries => !entries.isEmpty
  | .raw _ => true
  | .keyword _ => true
  | .record _ _ => true
  | .builder _ => true

/-- Whether the value is SQL text that is spliced in rather than bound. -/
def isRaw : Value → Bool
  | .raw _ => true
  | _ => false

/-- The text of a text value; a reserved word is read as its SQL word. -/
def asText? : Value → Option String
  | .text s => some s
  | .keyword k => some k.word
  | _ => none

/-- A text, or null for none. -/
def ofText? : Option String → Value
  | some s => .text s
  | none => .null

/-- Whether the value is a text. -/
def isText (v : Value) : Bool := v.asText?.isSome

/-- The entries of a map. -/
def asMap? : Value → Option Entries
  | .map entries => some entries
  | _ => none

/-- The characters of a text, each a text. -/
def characters (s : String) : List Value :=
  s.toList.map fun c => .text (String.singleton c)

/-- The items that a value can be walked through: the members of a list, tuple or set, the keys
of a map, the characters of a text, the bytes of a byte string. -/
def items? : Value → Option (List Value)
  | .list items => some items
  | .tuple items => some items
  | .set items => some items
  | .map entries => some (entries.map Prod.fst)
  | .text s => some (characters s)
  | .keyword k => some (characters k.word)
  | .bytes bs => some (bs.map fun b => .int b.toNat)
  | .byteArray bs => some (bs.map fun b => .int b.toNat)
  | _ => none

/-- The members of a list or tuple. -/
def sequence? : Value → Option (List Value)
  | .list items => some items
  | .tuple items => some items
  | _ => none

/-- A value as a list of parts: null has none, a list or tuple has its members, and anything
else is its own only part. -/
def parts : Value → List Value
  | .null => []
  | .list items => items
  | .tuple items => items
  | v => [v]

end Value
end Querywright
