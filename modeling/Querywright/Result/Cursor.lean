/-
  Cursors: the rows of an executed statement that have not been fetched yet. After the last row a
  cursor ends, or the fetch fails.

  * `pull` takes the next row as a map.
  * `drain` takes all of them, in order; `drain_eq_pull` says that it is `pull` again and again
    unless the fetch fails after the last row.
-/
import Querywright.Fault
import Querywright.Result.Row

namespace Querywright

/-- What is left of a result. -/
structure Cursor where
  /-- The number of the connection it belongs to. -/
  connection : Nat
  /-- The column names; a statement without a result has none. -/
  columns : List Value := []
  rows : List Row := []
  /-- The fault of a fetch after the last row. -/
  ending : Option DriverFault := none
  /-- How many rows the statement has changed, as the database counts. -/
  rowCount : Option Int := some (-1)
  lastRowId : Value := .null

namespace Cursor

/-- The cursor after a row is taken. -/
def advance (c : Cursor) : Cursor := { c with rows := c.rows.tail }

/-- What a fetch after the last row gives. -/
def finish (c : Cursor) : Except Fault Unit :=
  match c.ending with
  | none => .ok ()
  | some d => .error (.driver d)

/-- The next row; none at the end. -/
def pull (c : Cursor) : Except Fault (Option Entries) :=
  match c.rows with
  | row :: _ => (row.shape c.columns).map some
  | [] => c.finish.map fun () => none

/-- All rows that are left. They are fetched before any becomes a map. -/
def drain (c : Cursor) : Except Fault (List Entries) := do
  c.finish
  c.rows.mapM (Row.shape c.columns)

theorem drain_eq_pull {c : Cursor} (h : c.ending = none) :
    c.drain = match c.pull with
      | .ok (some row) => c.advance.drain.map (row :: ·)
      | .ok none => .ok []
      | .error e => .error e := by
  unfold drain pull
  cases hr : c.rows with
  | nil => simp [finish, h, Except.map, bind, Except.bind, pure, Except.pure]
  | cons row rest =>
    cases hs : row.shape c.columns <;>
      simp [advance, finish, h, hr, hs, Except.map, bind, Except.bind, pure, Except.pure]

end Cursor
end Querywright
