/-
  Rows as a database hands them out, and rows as maps from column names.

  * A plain row has values only; the column names come from the result it belongs to.
  * A keyed row carries the names. Asked for a name that occurs twice it gives the first value.

  `Row.shape` makes a map of either. Columns of one name become one entry: of a plain row the
  last value counts, of a keyed row the first. A name that cannot be a key is not supported.
-/
import Querywright.Value.Number
import Querywright.Value.Order

namespace Querywright

/-- A row. -/
inductive Row where
  | plain (values : List Value)
  | keyed (names values : List Value)

namespace Row

/-- A map from pairs of a name and a value. -/
def ofPairs (pairs : List (Value × Value)) : Except Fault Entries :=
  if pairs.all fun p => p.1.isKey then .ok (Entries.ofList pairs) else .error .unsupported

/-- The value under the name at a place: that of the first equal name. -/
def valueAt (names values : List Value) (name : Value) (place : Nat) : Except Fault Value :=
  match values[((names.findIdx? (Value.equal · name)).getD place)]? with
  | some v => .ok v
  | none => .error .noIndex

/-- The cells of a keyed row. -/
def cells (names values : List Value) : List (Value × Nat) → Except Fault (List (Value × Value))
  | [] => .ok []
  | (name, place) :: rest => do
    let v ← valueAt names values name place
    if !name.isKey then throw .unsupported
    return (name, v) :: (← cells names values rest)

/-- The map of a row under the column names of its result. -/
def shape (columns : List Value) : Row → Except Fault Entries
  | .plain values => ofPairs (columns.zip values)
  | .keyed names values => (cells names values names.zipIdx).map Entries.ofList

/-- A row from any value. A map is a keyed row, and anything else that can be walked through is
a plain one. -/
def ofValue (v : Value) : Except Fault Row :=
  match v with
  | .map entries => .ok (.keyed (Entries.keys entries) (Entries.values entries))
  | v => (v.items).map .plain

/-- The map of a row that may be absent, under column names that may be any value. Only a plain
row needs them. -/
def toMap (columns : Value) : Option Row → Except Fault Entries
  | none => .ok []
  | some (.plain values) => do shape (← columns.items) (.plain values)
  | some row => shape [] row

/-- The first item of what describes a column. -/
def columnName (v : Value) : Except Fault Value :=
  match v with
  | .map entries =>
    match Entries.get? (.int 0) entries with
    | some name => .ok name
    | none => .error .noKey
  | .set _ => .error .unsupported
  | v => do
    match ← v.items with
    | name :: _ => return name
    | [] => throw .noIndex

/-- The column names in the description of a result; a statement without a result has none. -/
def columnNames (description : Value) : Except Fault (List Value) := do
  if description.truth then (← description.items).mapM columnName else return []

end Row
end Querywright
