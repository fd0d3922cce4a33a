/-
  Transactions by explicit statements, of one level. A transaction becomes active when its BEGIN
  has succeeded, and inactive when its COMMIT or ROLLBACK has.
-/
import Querywright.Session.Basic

namespace Querywright

/-- A transaction of a session. -/
structure Transaction where
  active : Bool := false
  deriving DecidableEq, Repr

namespace Transaction

variable {σ α : Type}

/-- Run a statement of transaction control. -/
def control (s : Session σ) (sql : String) : Action σ Unit := do
  let _ ← s.run { query := .text sql }

/-- Begin. -/
def begin (s : Session σ) (t : Transaction) : Action σ Transaction :=
  if t.active then throw (.transaction .alreadyActive)
  else do
    control s "BEGIN"
    return { active := true }

/-- Commit. -/
def commit (s : Session σ) (t : Transaction) : Action σ Transaction :=
  if t.active then do
    control s "COMMIT"
    return { active := false }
  else throw (.transaction .nothingToCommit)

/-- Roll back. -/
def rollback (s : Session σ) (t : Transaction) : Action σ Transaction :=
  if t.active then do
    control s "ROLLBACK"
    return { active := false }
  else throw (.transaction .nothingToRollBack)

/-- That a transaction is rolled back because of a fault. -/
def rollingBack (e : Fault) : Journal.Entry where
  level := .debug
  speaker := "transaction"
  message := "Rolling back transaction after " ++ e.label

/-- Leave the block of a transaction: commit, or roll back when the block has failed. -/
def leave (s : Session σ) (t : Transaction) : Option Fault → Action σ Transaction
  | none => commit s t
  | some e => do
    Action.log (rollingBack e)
    rollback s t

/-- Run a block inside a new transaction. -/
def around (s : Session σ) (block : Action σ α) : Action σ α := do
  let t ← begin s {}
  let a ← Action.onFault block fun e => do
    let _ ← leave s t (some e)
  let _ ← leave s t none
  return a

end Transaction
end Querywright
