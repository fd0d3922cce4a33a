/-
  A compiled statement: SQL text with numbered placeholders, the values bound to them in order,
  and how many rows to collect. A statement that is given rather than compiled may have any query;
  a driver that wants a text refuses others.
-/
import Querywright.Value.Display

namespace Querywright

/-- A compiled statement. -/
structure Statement where
  query : Value
  arguments : List Value := []
  fetch : FetchMode := .none

namespace Statement

/-- The statement as a quoted record. -/
def literal (s : Statement) : String :=
  "Statement(query=" ++ s.query.literal ++ ", arguments=" ++ (Value.tuple s.arguments).literal
    ++ ", fetch_type=" ++ (Value.keyword (.fetch s.fetch)).literal ++ ")"

/-- The statement as a map. -/
def toEntries (s : Statement) : Entries :=
  [(.text "query", s.query), (.text "arguments", .list s.arguments),
    (.text "fetchType", .text s.fetch.word)]

end Statement
end Querywright
