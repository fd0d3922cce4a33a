/-
  The outcome of a statement that has run.
-/
import Querywright.Fault
import Querywright.Journal.Basic
import Querywright.Number.Numeral
import Querywright.Text.Blank
import Querywright.Text.LetterCase

namespace Querywright

/-- The rows that were collected. -/
inductive Fetched where
  | none
  | one (row : Option Entries)
  | all (rows : List Entries)

namespace Fetched

/-- The rows as a value. -/
def toValue : Fetched → Value
  | .none => .null
  | .one Option.none => .null
  | .one (some row) => .map row
  | .all rows => .list (rows.map .map)

/-- How many rows were collected. -/
def count : Fetched → Nat
  | .none => 0
  | .one row => row.toList.length
  | .all rows => rows.length

/-- The rows of a result that collects all of them. -/
def rows : Fetched → List Entries
  | .all rows => rows
  | _ => []

end Fetched

/-- The outcome of a statement. -/
structure Result where
  collected : Fetched
  /-- Rows changed. -/
  changes : Int
  lastRowId : Value := .null
  /-- Rows written. -/
  written : Int
  /-- The first word of the query; null when it has none. -/
  command : Value
  elapsed : Binary64

/-- The outcome as a map. A statement that has failed has no outcome, so `success` is true. -/
def Result.toEntries (r : Result) : Entries :=
  [(.text "success", .bool true), (.text "results", r.collected.toValue),
    (.text "changes", .int r.changes), (.text "last_row_id", r.lastRowId),
    (.text "rows_read", .int r.collected.count), (.text "rows_written", .int r.written),
    (.text "command", r.command), (.text "duration_ms", .float r.elapsed),
    (.text "meta", .map [])]

namespace Statement

/-- The first word of a text in upper case. -/
def command? (sql : String) : Option String :=
  match Text.firstWord sql.toList with
  | [] => none
  | word => some (String.ofList (Text.upper word))

/-- The first word of bytes in upper case, within ASCII. -/
def commandBytes? (sql : List UInt8) : Option (List UInt8) :=
  let isSpace (b : UInt8) : Bool := Numeral.isSpace (Char.ofNat b.toNat)
  match (sql.dropWhile isSpace).takeWhile fun b => !isSpace b with
  | [] => none
  | word => some (word.map fun b => if 97 ≤ b.toNat ∧ b.toNat ≤ 122 then b - 32 else b)

/-- The first word of a query in upper case, in the form of the query. -/
def command (sql : Value) : Except Fault Value :=
  match sql with
  | .text s => .ok (Value.ofText? (command? s))
  | .keyword k => .ok (Value.ofText? (command? k.word))
  | .bytes bs => .ok (((commandBytes? bs).map .bytes).getD .null)
  | .byteArray bs => .ok (((commandBytes? bs).map .byteArray).getD .null)
  | _ => .error .noMember

end Statement
end Querywright
