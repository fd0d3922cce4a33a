/-
  Migrations: named scripts that are applied once each, in order. A table records the names of
  those that have been applied. Every migration runs in a transaction of its own, together with
  the row that records it.
-/
import Querywright.Migration.Script
import Querywright.Session.Request
import Querywright.Session.Transaction

namespace Querywright

/-- A named script. -/
structure Migration where
  name : String
  sql : String
  deriving DecidableEq, Repr

/-- Migrations and the table that records them. -/
structure Migrations where
  items : List Migration
  table : String := "migrations"

namespace Migrations

variable {σ : Type}

/-- The part of the library that speaks. -/
def speaker : String := "schema.migration"

/-- The type of the table's ids, by dialect. -/
def idType : Dialect → String
  | .sqlite => "INTEGER PRIMARY KEY AUTOINCREMENT"
  | .postgres => "SERIAL PRIMARY KEY"

/-- The columns of the table, by dialect. -/
def schema (d : Dialect) : String :=
  "id         " ++ idType d ++ ",\nname       TEXT UNIQUE,\n"
    ++ "applied_at TIMESTAMP DEFAULT CURRENT_TIMESTAMP NOT NULL"

/-- Run a request. -/
def runQuery (s : Session σ) (q : Except Fault (Query Runner)) : Action σ Result := do
  s.run (← Action.ofExcept q).statement

/-- Create the table if it is not there. -/
def prepare (s : Session σ) (m : Migrations) : Action σ Unit := do
  let _ ← runQuery s (Request.createTable .null [("table_name", .text m.table),
    ("schema", .text (schema s.adapter.dialect)), ("if_not_exists", .bool true)])

/-- The recorded rows, in the order of their ids. -/
def applied (s : Session σ) (m : Migrations) : Action σ (List Entries) := do
  prepare s m
  let result ← runQuery s (Request.all s.strict .null
    [("table_name", .text m.table), ("order_by", .text "id")])
  return result.collected.rows

/-- The name in a recorded row. -/
def recordedName (row : Entries) : Except Fault Value :=
  match row.field? "name" with
  | none => .error .noKey
  | some v => if v.isKey then .ok v else .error .unsupported

/-- The migrations whose names are not among the recorded ones. -/
def unrecorded (m : Migrations) (names : List Value) : List Migration :=
  m.items.filter fun x => !names.any fun v => v.sameKey (.text x.name)

/-- The migrations that have not been applied. -/
def unapplied (s : Session σ) (m : Migrations) : Action σ (List Migration) := do
  let rows ← applied s m
  return unrecorded m (← Action.ofExcept (rows.mapM recordedName))

/-- Run the statements of a migration and record its name. -/
def perform (s : Session σ) (m : Migrations) (x : Migration) : Action σ Unit := do
  (Script.split x.sql).forM fun sql => do
    let _ ← runQuery s (Request.text sql)
  let _ ← runQuery s (Request.insert s.strict .null
    [("table_name", .text m.table), ("data", .map [(.text "name", .text x.name)])])

/-- That a migration is applied. -/
def applying (x : Migration) : Journal.Entry where
  level := .info
  speaker := speaker
  message := "Applying migration " ++ x.name

/-- That there is nothing to apply. -/
def nothingPending (m : Migrations) : Journal.Entry where
  level := .debug
  speaker := speaker
  message := "No pending migrations in " ++ m.table

/-- Apply migrations in order, each in a transaction. The first fault ends it. -/
def applyEach (s : Session σ) (m : Migrations) : List Migration → Action σ Unit
  | [] => return ()
  | x :: rest => do
    Action.log (applying x)
    Transaction.around s (perform s m x)
    applyEach s m rest

/-- Apply the migrations that have not been applied, and list them. -/
def apply (s : Session σ) (m : Migrations) : Action σ (List Migration) := do
  let pending ← unapplied s m
  applyEach s m pending
  if pending.isEmpty then Action.log (nothingPending m)
  return pending

end Migrations
end Querywright
