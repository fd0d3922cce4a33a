/-
  The PostgreSQL adapter. Statements are translated to the driver's format markers, and the
  markers of every text are counted against its values before anything is sent.

  A connection that the server has dropped is replaced when it is needed next. Every fault of
  opening a connection or running a statement is reworded.
-/
import Querywright.Adapter.Basic
import Querywright.Secret.Redaction

namespace Querywright.Adapter.Postgres

open Wire (Server)

/-- The part of the library that speaks. -/
def speaker : String := "adapters.postgres"

/-- Open a connection, where the driver is installed. The names of its options must be texts. -/
def connect (server : Server) (installed : Bool) (s : Settings) : Action Wire Unit := do
  if !installed then throw (.setting .driverMissing none)
  let label := (← Action.ofExcept s.label).display
  Action.log { level := .info, speaker, message := "Opening PostgreSQL connection to " ++ label }
  let connection ← Action.mapFault (.connectionRefused label) do
    let options ← Action.ofExcept s.driverOptions
    let _ ← Action.ofExcept (Value.texts options.keys)
    Wire.connect server s.url (.map options)
  let _ ← Wire.send server connection (.setAutocommit s.autocommit.truth)
  Wire.hold connection s

/-- The held connection, which must be there. -/
def held : Action Wire Wire.Held := do
  match (← Action.peer).held with
  | some held => return held
  | none => throw (.notConnected "PostgresAdapter")

/-- The held connection, opened again if the server has dropped it. -/
def connection (server : Server) (installed : Bool) : Action Wire Wire.Held := do
  let now ← held
  if ← Wire.isDropped server now.connection then
    Action.log { level := .warning, speaker, message :=
      "PostgreSQL connection was closed by the server; reconnecting." }
    connect server installed now.settings
    held
  else return now

/-- A driver's fault of a statement is a refusal. -/
def refused : Fault → Fault
  | .driver d => .executionRefused "PostgreSQL" d
  | e => e

/-- The number of values that a query takes; only a text can be counted. -/
def markersOf (sql : Value) : Except Fault Nat :=
  match sql.asText? with
  | some s => .ok (Dialect.countMarkers s.toList)
  | none => .error .unsupported

/-- Run a query with its values. -/
def execute (server : Server) (installed : Bool) (slow : Int) (sql : Value)
    (values : List Value) : Action Wire Cursor := do
  let markers ← Action.ofExcept (markersOf sql)
  if markers ≠ values.length then throw (.markerMismatch markers values.length)
  let c := (← connection server installed).connection
  let _ ← Wire.send server c .openCursor
  Action.timed speaker "postgres.execute" slow sql (Secret.redactAll values)
    (Action.mapFault refused (Wire.query server c sql (some values)))

/-- Run a statement. -/
def start (server : Server) (installed : Bool) (slow : Int) (s : Statement) :
    Action Wire (Value × Cursor) := do
  let prepared ← Action.ofExcept (Dialect.postgres.translate s)
  return (prepared.sql, ← execute server installed slow prepared.sql prepared.arguments)

/-- Collect rows; a statement without a result has none to fetch. -/
def collectColumns (mode : FetchMode) (cursor : Cursor) : Except Fault Fetched :=
  if cursor.columns.isEmpty then
    match mode with
    | .none => .ok .none
    | .one => .ok (.one none)
    | .all => .ok (.all [])
  else collect mode cursor

/-- Run a statement and collect its rows. -/
def run (server : Server) (installed : Bool) (slow : Int) (s : Statement) :
    Action Wire Result := do
  let began ← Action.now
  let (sql, cursor) ← start server installed slow s
  let collected ← Action.ofExcept (collectColumns s.fetch cursor)
  let changes := changed (cursor.rowCount.getD 0)
  let command ← Action.ofExcept (Statement.command sql)
  let ended ← Action.now
  return {
    collected
    changes
    written := if command.asText? = some "SELECT" then 0 else changes
    command
    elapsed := Journal.millis (ended - began) }

/-- Begin a transaction. Without autocommit the driver does so itself at the next statement. -/
def begin (server : Server) (installed : Bool) : Action Wire Unit := do
  let now ← connection server installed
  if now.settings.autocommit.truth then
    let _ ← Wire.send server now.connection .openCursor
    let _ ← Wire.query server now.connection (.text "BEGIN") none

/-- Make a call on the connection. -/
def onConnection (server : Server) (installed : Bool) (call : Wire.Call) : Action Wire Unit := do
  let now ← connection server installed
  let _ ← Wire.send server now.connection call

end Postgres

/-- The PostgreSQL adapter. -/
def postgres (server : Wire.Server) (installed : Bool) (slow : Int) : Adapter Wire where
  dialect := .postgres
  slowMillis := slow
  connect := Postgres.connect server installed
  close := Wire.release server
  execute := Postgres.execute server installed slow
  run := Postgres.run server installed slow
  stream s := do return (← Postgres.start server installed slow s).2
  closeCursor cursor := do
    let _ ← Wire.send server cursor.connection .closeCursor
  begin := Postgres.begin server installed
  commit := Postgres.onConnection server installed .commit
  rollback := Postgres.onConnection server installed .rollback

end Querywright.Adapter
