/-
  Streams: results whose rows are fetched one by one. Nothing runs before the first row is asked
  for. When a stream that has started ends, by its last row, by a fault or because it is closed,
  its cursor is closed and the observer is told; after that it has no rows.
-/
import Querywright.Session.Basic

namespace Querywright

/-- A stream that has started. The observer is the one that the session had then. -/
structure OpenStream where
  statement : Statement
  observer : Observer
  began : Journal.Micros
  cursor : Cursor

/-- A stream of rows. -/
inductive Stream where
  | waiting (statement : Statement)
  | running (s : OpenStream)
  | ended

namespace Stream

variable {σ : Type}

/-- Close the cursor and tell the observer, whatever the last step came to. -/
def finish {α : Type} (a : Adapter σ) (s : OpenStream) (last : Action σ α) : Action σ α :=
  Action.always (Action.always last (a.closeCursor s.cursor))
    (s.observer.conclude s.began [s.statement])

/-- Run the statement of a stream. If that fails, the observer is told. -/
def start (session : Session σ) (statement : Statement) : Action σ OpenStream := do
  let began ← Action.now
  let cursor ← Action.onFault (session.adapter.stream statement) fun _ =>
    session.observer.conclude began [statement]
  return { statement, observer := session.observer, began, cursor }

/-- The next row of a stream that has started, and the stream after it. -/
def pull (a : Adapter σ) (s : OpenStream) : Action σ (Option Entries × Stream) :=
  match s.cursor.pull with
  | .ok (some row) => return (some row, .running { s with cursor := s.cursor.advance })
  | .ok none => finish a s (return (none, .ended))
  | .error e => finish a s (throw e)

/-- The next row, and the stream after it. After a fault the stream has ended. -/
def next (session : Session σ) : Stream → Action σ (Option Entries × Stream)
  | .waiting statement => do pull session.adapter (← start session statement)
  | .running s => pull session.adapter s
  | .ended => return (none, .ended)

/-- Up to `n` rows, whether the stream has ended, and the stream after them. -/
def take (session : Session σ) : Nat → Stream → Action σ (List Entries × Bool × Stream)
  | 0, s => return ([], false, s)
  | n + 1, s => do
    match ← next session s with
    | (none, s) => return ([], true, s)
    | (some row, s) =>
      let (rows, finished, s) ← take session n s
      return (row :: rows, finished, s)

/-- Close a stream. -/
def close (session : Session σ) : Stream → Action σ Unit
  | .running s => finish session.adapter s (return ())
  | _ => return ()

end Stream

/-- What running a query gives. -/
inductive Outcome where
  | result (r : Result)
  | stream (s : Stream)

namespace Session

variable {σ : Type}

/-- Run a statement as its runner says. -/
def perform (s : Session σ) (runner : Runner) (statement : Statement) : Action σ Outcome :=
  match runner with
  | .collecting => return .result (← s.run statement)
  | .streaming => return .stream (.waiting statement)

/-- Run a query. -/
def executeQuery (s : Session σ) (q : Query Runner) : Action σ Outcome := do
  let (runner, statement) ← Action.ofExcept q.execution
  s.perform runner statement

/-- Count the rows of a query. -/
def countRows (s : Session σ) (q : Query Runner) : Action σ Outcome := do
  let (runner, statement) ← Action.ofExcept q.counting
  s.perform runner statement

end Session
end Querywright
