/-
  Inserts, of one row or several, and upserts.

  The first row sets the columns; every other row must have the same ones, in any order. In an
  upsert the values of the guard are numbered first, those of the update next and those of the
  rows last, although the rows come first in the text and the guard last.
-/
import Querywright.Clause.Row
import Querywright.Select.Compile

namespace Querywright.Statement

/-- The columns of several rows, and each row's values in their order. -/
structure Table where
  columns : List Value
  values : List (List Value)

namespace Table

/-- The rows that the data of an insert holds: a map is one row, and null is none. -/
def rowValues (data : Value) : Except Fault (List Value) :=
  match data with
  | .map _ => .ok [data]
  | .list items => .ok items
  | .tuple items => .ok items
  | .null => .ok []
  | _ => .error (.shape (.rowsNotMaps data.kindName))

/-- Every row as a map. -/
def rowMaps : Nat → List Value → Except Fault (List Entries)
  | _, [] => .ok []
  | position, .map entries :: rest => (rowMaps (position + 1) rest).map (entries :: ·)
  | position, v :: _ => .error (.shape (.rowNotMap position v.kindName))

/-- The fault of a row with other columns than the first. -/
def columnFault (position : Nat) (columns : List Value) : Fault :=
  match Value.texts columns with
  | .ok names => .shape (.rowColumns position names)
  | .error e => e

/-- The values of a row at the columns. -/
def valuesAt (row : Entries) : List Value → Except Fault (List Value)
  | [] => .ok []
  | column :: rest =>
    match row.get? column with
    | some v => (valuesAt row rest).map (v :: ·)
    | none => .error .noKey

/-- The values of the rows after the first, in the order of the first row's columns. -/
def align (first : Entries) : Nat → List Entries → Except Fault (List (List Value))
  | _, [] => .ok []
  | position, row :: rest =>
    if Entries.sameKeySet row first then do
      let values ← valuesAt row first.keys
      let more ← align first (position + 1) rest
      return values :: more
    else .error (columnFault position first.keys)

/-- The table of an insert's data. -/
def ofData (data : Value) : Except Fault Table := do
  match ← rowMaps 0 (← rowValues data) with
  | [] => throw (.missingData "insert" "data")
  | first :: rest =>
    if first.isEmpty then throw (.missingData "insert" "data")
    return ⟨first.keys, first.values :: (← align first 1 rest)⟩

/-- The names of the columns. -/
def columnText (t : Table) : Except Fault String :=
  (Value.texts t.columns).map Value.commas

/-- How many values the rows bind. -/
def countBound (t : Table) : Nat := t.values.foldl (fun n row => n + Clause.countBound row) 0

end Table

/-- Whether the value is an upsert rather than a conflict keyword. -/
def isUpsert : Value → Bool
  | .record .upsert _ => true
  | .map _ => true
  | _ => false

/-- Write an upsert. -/
def compileUpsert (strict : Bool) (table : String) (rows : Table) (fields : List Value)
    (returning : Value) (fetch : FetchMode) : Except Fault Statement := do
  let field := RecordKind.field .upsert fields
  let data := field "data"
  if !data.truth then throw (.missingData "upsert" "data")
  match data.asMap? with
  | none => throw (.shape (.dataNotMap "Upsert data" data.kindName))
  | some data =>
    let guard ← (Select.readFilter Select.ofValue (field "where")).compile strict
      "ON CONFLICT WHERE" 0
    let guard ← guard.numbered
    let g := guard.arguments.length
    let (tuples, inserted) ← Clause.rows rows.values (g + Clause.countBound data.values)
    let columns ← rows.columnText
    let target ← Clause.conflictTarget (field "column")
    let assigned ← Clause.assignments data g
    let ending ← Clause.returning returning
    return ⟨.text ("INSERT INTO " ++ table ++ " (" ++ columns ++ ") VALUES " ++ Value.commas tuples
        ++ " ON CONFLICT " ++ target ++ " DO UPDATE SET " ++ assigned
        ++ guard.clause "WHERE" ++ ending),
      guard.arguments ++ Clause.boundValues data.values ++ inserted, fetch⟩

/-- Write an insert without an upsert. -/
def compileInsert (table : String) (rows : Table) (conflict returning : Value)
    (fetch : FetchMode) : Except Fault Statement := do
  let (tuples, inserted) ← Clause.rows rows.values 0
  let columns ← rows.columnText
  let ending ← Clause.returning returning
  return ⟨.text ("INSERT " ++ Clause.conflictKeyword conflict ++ "INTO " ++ table ++ " ("
      ++ columns ++ ") VALUES " ++ Value.commas tuples ++ ending),
    inserted, fetch⟩

/-- An insert from a descriptor. A map as data returns one row, a list returns all of its rows. -/
def insert (strict : Bool) (v : Value) : Except Fault Statement := do
  match ← RecordKind.coerce .insert v with
  | .record _ fields =>
    let field := RecordKind.field .insert fields
    let table ← requireTable "insert" (field "table_name")
    let rows ← Table.ofData (field "data")
    let fetch : FetchMode := if (field "data").asMap?.isSome then .one else .all
    let conflict := field "on_conflict"
    if isUpsert conflict then
      match ← RecordKind.coerce .upsert conflict with
      | .record _ upsert => compileUpsert strict table rows upsert (field "returning") fetch
      | _ => throw .unsupported
    else compileInsert table rows conflict (field "returning") fetch
  | _ => throw .unsupported

end Querywright.Statement
