/-
  The journal: what the library logs. An entry has a level, the part of the library that speaks,
  a message, and sometimes the statement it is about.

  * `Entry.timing` tells how long something took, as a warning from a threshold of microseconds on.
  * `Entry.statement` tells that a statement has run.
-/
import Querywright.Number.Decimal
import Querywright.Statement.Basic

namespace Querywright.Journal

/-- How much an entry matters. -/
inductive Level where
  | debug
  | info
  | warning
  | error
  | critical
  deriving DecidableEq, Repr

namespace Level

/-- The name of a level. -/
def name : Level → String
  | .debug => "DEBUG"
  | .info => "INFO"
  | .warning => "WARNING"
  | .error => "ERROR"
  | .critical => "CRITICAL"

/-- The rank of a level. -/
def rank : Level → Nat
  | .debug => 10
  | .info => 20
  | .warning => 30
  | .error => 40
  | .critical => 50

/-- Second names of levels. -/
def otherNames : List (String × Level) := [("WARN", warning), ("FATAL", critical)]

/-- The level with that name. -/
def ofName? (s : String) : Option Level :=
  ([debug, info, warning, error, critical].find? fun l => l.name == s) <|> otherNames.lookup s

end Level

/-- A span of time in microseconds. -/
abbrev Micros := Nat

/-- A span in milliseconds. -/
def millis (t : Micros) : Binary64 := Binary64.ofRatio false t 1000

/-- What an entry tells about a statement. -/
structure Details where
  sql : Option Value := none
  arguments : Option (List Value) := none
  fetch : Option FetchMode := none
  elapsed : Option Binary64 := none

/-- An entry. -/
structure Entry where
  level : Level
  /-- The part of the library that speaks. -/
  speaker : String
  message : String
  details : Details := {}

namespace Entry

/-- The name under which all parts of the library log. -/
def family : String := "blazeqb"

/-- The full name of the speaker. -/
def logger (e : Entry) : String := family ++ "." ++ e.speaker

/-- The entry as a map; details that it does not tell are left out. -/
def toEntries (e : Entry) : Entries :=
  [(.text "level", .text e.level.name), (.text "logger", .text e.logger),
    (.text "message", .text e.message)]
    ++ (e.details.sql.map fun s => (Value.text "sql", s)).toList
    ++ (e.details.arguments.map fun vs => (Value.text "params", Value.list vs)).toList
    ++ (e.details.fetch.map fun m => (Value.text "fetch_type", Value.text m.word)).toList
    ++ (e.details.elapsed.map fun x => (Value.text "elapsed_ms", Value.float x)).toList

/-- Whether a span reaches a threshold, both in microseconds. -/
def isSlow (threshold : Int) (t : Micros) : Bool := decide (threshold ≤ (t : Int))

/-- How long something took. -/
def timing (speaker name : String) (threshold : Int) (t : Micros) (sql : Option Value)
    (arguments : Option (List Value)) : Entry where
  level := if isSlow threshold t then .warning else .debug
  speaker := speaker
  message := name ++ " took " ++ (millis t).fixed2 ++ "ms"
  details := { sql, arguments, elapsed := some (millis t) }

/-- That a statement has run, and for how many milliseconds. -/
def statement (s : Statement) (elapsed : Binary64) : Entry where
  level := .info
  speaker := "query"
  message := "[" ++ elapsed.fixed2 ++ "ms] " ++ s.query.display
  details := { sql := some s.query, arguments := some s.arguments, fetch := some s.fetch }

end Entry
end Querywright.Journal
