/-
  The wire between an adapter and a database driver: the calls that are made, in order, and the
  replies. The other side is a `Server`, a function from the calls so far and the new one to a
  reply; nothing else is known about it.

  Every connection has a number. A call on a connection that the server has dropped is still a
  call; whether it was dropped is something to ask.
-/
import Querywright.Action
import Querywright.Connection.Settings
import Querywright.Result.Cursor

namespace Querywright.Wire

/-- A call on a driver. -/
inductive Call where
  /-- Open a connection to a target, with what the driver is told beside it. -/
  | connect (target : Value) (options : Value)
  | setAutocommit (on : Bool)
  /-- Run a statement without a cursor. -/
  | direct (sql : String)
  | openCursor
  /-- Run a statement, with or without a list of values. -/
  | execute (sql : Value) (values : Option (List Value))
  | commit
  | rollback
  | close
  | closeCursor
  /-- Ask whether the server has dropped the connection. -/
  | probe

/-- A call as a list: what is called, and what is passed. -/
def Call.toValues : Call → List Value
  | .connect target options => [.text "connect", target, options]
  | .setAutocommit on => [.text "autocommit", .bool on]
  | .direct sql => [.text "connection.execute", .text sql]
  | .openCursor => [.text "cursor"]
  | .execute sql none => [.text "execute", sql]
  | .execute sql (some values) => [.text "execute", sql, .list values]
  | .commit => [.text "commit"]
  | .rollback => [.text "rollback"]
  | .close => [.text "close"]
  | .closeCursor => [.text "cursor.close"]
  | .probe => [.text "closed"]

/-- A call and the connection it is made on. -/
structure Event where
  connection : Nat
  call : Call

/-- What the server answers to a call. -/
structure Reply where
  /-- How long the call takes. -/
  elapsed : Journal.Micros := 0
  failure : Option DriverFault := none
  columns : List Value := []
  rows : List Row := []
  /-- The fault of fetching beyond the rows. -/
  ending : Option DriverFault := none
  rowCount : Option Int := some (-1)
  lastRowId : Value := .null
  /-- The answer to a probe. -/
  dropped : Bool := false

/-- The other side of the wire. -/
abbrev Server := List Event → Event → Reply

/-- A connection that an adapter holds, and the settings it was opened with. -/
structure Held where
  connection : Nat
  settings : Settings

end Wire

/-- One side of the wire: the calls made so far, how many connections were asked for, and the one
that is held. -/
structure Wire where
  history : List Wire.Event := []
  opened : Nat := 0
  held : Option Wire.Held := none

namespace Wire

/-- Make a call, and fail if it fails. -/
def send (server : Server) (connection : Nat) (call : Call) : Action Wire Reply := do
  let wire ← Action.peer
  let event : Event := ⟨connection, call⟩
  let reply := server wire.history event
  Action.setPeer fun w => { w with history := w.history ++ [event] }
  Action.pass reply.elapsed
  match reply.failure with
  | some d => throw (.driver d)
  | none => return reply

/-- Ask whether the server has dropped a connection. -/
def isDropped (server : Server) (connection : Nat) : Action Wire Bool := do
  let wire ← Action.peer
  let event : Event := ⟨connection, .probe⟩
  Action.setPeer fun w => { w with history := w.history ++ [event] }
  return (server wire.history event).dropped

/-- Ask for a connection. -/
def connect (server : Server) (target : Value) (options : Value) : Action Wire Nat := do
  let wire ← Action.peer
  let connection := wire.opened
  Action.setPeer fun w => { w with opened := w.opened + 1 }
  let _ ← send server connection (.connect target options)
  return connection

/-- Hold a connection from now on. -/
def hold (connection : Nat) (settings : Settings) : Action Wire Unit :=
  Action.setPeer fun w => { w with held := some ⟨connection, settings⟩ }

/-- Close the held connection. It is given up before it is closed, so it is given up even if
closing fails. -/
def release (server : Server) : Action Wire Unit := do
  let wire ← Action.peer
  match wire.held with
  | none => return ()
  | some held =>
    Action.setPeer fun w => { w with held := none }
    let _ ← send server held.connection .close

/-- Run a statement on a new cursor of a connection. -/
def query (server : Server) (connection : Nat) (sql : Value) (values : Option (List Value)) :
    Action Wire Cursor := do
  let reply ← send server connection (.execute sql values)
  return {
    connection
    columns := reply.columns
    rows := reply.rows
    ending := reply.ending
    rowCount := reply.rowCount
    lastRowId := reply.lastRowId }

end Wire
end Querywright
