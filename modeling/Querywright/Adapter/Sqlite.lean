/-
  The SQLite adapter. It numbers placeholders as statements do, so statements run as they are.
  A transaction exists only between an explicit BEGIN and its end.

  A fault that the driver documents, raised by a statement, is reworded; any other goes through.
-/
import Querywright.Adapter.Basic
import Querywright.Secret.Redaction

namespace Querywright.Adapter.Sqlite

open Wire (Server)

/-- The part of the library that speaks. -/
def speaker : String := "adapters.sqlite"

/-- The file of the settings, and how long to wait for a lock: five seconds unless told. -/
def waiting (s : Settings) : Value :=
  match s.timeout with
  | .null => .float (Binary64.ofRatio false 5 1)
  | v => v

/-- Open a connection and switch foreign keys on. -/
def connect (server : Server) (s : Settings) : Action Wire Unit := do
  let path ← Action.ofExcept (Settings.databasePath s.url)
  let connection ← Wire.connect server path (waiting s)
  let _ ← Wire.send server connection (.direct "PRAGMA foreign_keys = ON")
  Action.log { level := .debug, speaker, message := "Opened SQLite database " ++ path.display }
  Wire.hold connection s

/-- The connection, which must be there. -/
def connection : Action Wire Nat := do
  match (← Action.peer).held with
  | some held => return held.connection
  | none => throw (.notConnected "SQLiteAdapter")

/-- A documented fault of a statement is a refusal. -/
def refused : Fault → Fault
  | .driver (.operational message) => .executionRefused "SQLite" (.operational message)
  | e => e

/-- Run a query with its values. -/
def execute (server : Server) (slow : Int) (sql : Value) (values : List Value) :
    Action Wire Cursor := do
  let c ← connection
  let _ ← Wire.send server c .openCursor
  Action.timed speaker "sqlite.execute" slow sql (Secret.redactAll values)
    (Action.mapFault refused (Wire.query server c sql (some values)))

/-- Run a statement. -/
def start (server : Server) (slow : Int) (s : Statement) : Action Wire (Value × Cursor) := do
  let prepared ← Action.ofExcept (Dialect.sqlite.translate s)
  return (prepared.sql, ← execute server slow prepared.sql prepared.arguments)

/-- Run a statement and collect its rows. -/
def run (server : Server) (slow : Int) (s : Statement) : Action Wire Result := do
  let began ← Action.now
  let (sql, cursor) ← start server slow s
  let collected ← Action.ofExcept (collect s.fetch cursor)
  match cursor.rowCount with
  | none => throw .unsupported
  | some n =>
    let command ← Action.ofExcept (Statement.command sql)
    let ended ← Action.now
    return {
      collected
      changes := changed n
      lastRowId := cursor.lastRowId
      written := changed n
      command
      elapsed := Journal.millis (ended - began) }

/-- Make a call on the connection. -/
def onConnection (server : Server) (call : Wire.Call) : Action Wire Unit := do
  let c ← connection
  let _ ← Wire.send server c call

end Sqlite

/-- The SQLite adapter. -/
def sqlite (server : Wire.Server) (slow : Int) : Adapter Wire where
  dialect := .sqlite
  slowMillis := slow
  connect := Sqlite.connect server
  close := Wire.release server
  execute := Sqlite.execute server slow
  run := Sqlite.run server slow
  stream s := do return (← Sqlite.start server slow s).2
  closeCursor cursor := do
    let _ ← Wire.send server cursor.connection .closeCursor
  begin := Sqlite.onConnection server (.direct "BEGIN")
  commit := Sqlite.onConnection server .commit
  rollback := Sqlite.onConnection server .rollback

end Querywright.Adapter
