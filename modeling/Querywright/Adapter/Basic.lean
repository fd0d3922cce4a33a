/-
  Adapters: what the query builder needs of a database. `execute` takes text and values as the
  driver wants them; `run` and `stream` take a compiled statement.
-/
import Querywright.Dialect
import Querywright.Result.Basic
import Querywright.Wire.Basic

namespace Querywright

/-- What a database can be asked to do. -/
structure Adapter (σ : Type) where
  dialect : Dialect
  /-- From how many milliseconds on a statement is slow. -/
  slowMillis : Int
  /-- Open a connection and hold it. -/
  connect : Settings → Action σ Unit
  /-- Give up the connection. Without one nothing happens. -/
  close : Action σ Unit
  execute : Value → List Value → Action σ Cursor
  run : Statement → Action σ Result
  /-- Run a statement whose rows are fetched later. -/
  stream : Statement → Action σ Cursor
  /-- Close the cursor of a stream. -/
  closeCursor : Cursor → Action σ Unit
  begin : Action σ Unit
  commit : Action σ Unit
  rollback : Action σ Unit

namespace Adapter

variable {σ : Type}

/-- All rows of a stream. Its cursor is closed at the end, also when a fetch fails. -/
def streamAll (a : Adapter σ) (s : Statement) : Action σ (List Entries) := do
  let cursor ← a.stream s
  Action.always (Action.ofExcept cursor.drain) (a.closeCursor cursor)

/-- Collect rows from a cursor as a fetch mode says. -/
def collect (mode : FetchMode) (cursor : Cursor) : Except Fault Fetched :=
  match mode with
  | .none => .ok .none
  | .one => cursor.pull.map .one
  | .all => cursor.drain.map .all

/-- The number of rows changed; a count below zero means none. -/
def changed (count : Int) : Int := max count 0

end Adapter
end Querywright
