/-
  Dialects: how a compiled statement is handed to a driver. SQLite reads numbered placeholders
  as they are. PostgreSQL wants one `%s` per placeholder, the values in text order, and every
  other percent sign doubled.
-/
import Querywright.Placeholder
import Querywright.Select.Compile

namespace Querywright

/-- A dialect. -/
inductive Dialect where
  | sqlite
  | postgres
  deriving DecidableEq, Repr

namespace Dialect

/-- The dialect's name. -/
def name : Dialect → String
  | .sqlite => "sqlite"
  | .postgres => "postgresql"

/-- The style of its placeholders. -/
def paramStyle : Dialect → String
  | .sqlite => "qmark"
  | .postgres => "format"

/-- A lexeme as format text. -/
def formatLexeme : Placeholder.Lexeme → List Char
  | .plain c => if c = '%' then ['%', '%'] else [c]
  | .mark _ => ['%', 's']

/-- The text with format markers. -/
def formatText (sql : String) : String :=
  String.ofList ((Placeholder.lex sql.toList).flatMap formatLexeme)

/-- The argument that an index binds; index zero binds the last one. -/
def argumentAt (arguments : List Value) (index : Int) : Except Fault Value :=
  let found := if index = 0 then arguments.getLast? else arguments[(index - 1).toNat]?
  match found with
  | some v => .ok v
  | none => .error .noIndex

/-- The text with format markers, and the values in the order of its placeholders. -/
def toFormat (sql : String) (arguments : List Value) : Except Fault Piece := do
  let indexes ← Placeholder.resolve sql 0
  let highest := Placeholder.highest 0 indexes
  if highest > arguments.length then
    throw (mismatch "statement" (some sql) highest arguments.length)
  return ⟨formatText sql, ← indexes.mapM (argumentAt arguments)⟩

/-- What reaches a driver: the query, and the values. -/
structure Prepared where
  sql : Value
  arguments : List Value

/-- What reaches the driver of a statement. PostgreSQL's wants a text. -/
def translate : Dialect → Statement → Except Fault Prepared
  | .sqlite, s => .ok ⟨s.query, s.arguments⟩
  | .postgres, s =>
    match s.query.asText? with
    | some sql => (toFormat sql s.arguments).map fun p => ⟨.text p.sql, p.arguments⟩
    | none => .error .unsupported

/-- How many values the format markers of a text take; a doubled percent sign takes none. -/
def countMarkers : List Char → Nat
  | '%' :: '%' :: rest => countMarkers rest
  | '%' :: 's' :: rest => countMarkers rest + 1
  | _ :: rest => countMarkers rest
  | [] => 0

end Dialect
end Querywright
