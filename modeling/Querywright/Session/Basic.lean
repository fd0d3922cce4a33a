/-
  Sessions: an adapter, the strictness of limits, and an observer that hears of every statement
  once it has run, with secrets masked and with the time it took, whether it succeeded or not.
-/
import Querywright.Adapter.Basic
import Querywright.Secret.Redaction
import Querywright.Statement.Query

namespace Querywright

/-- Who hears of statements that have run: nobody, a caller's hook, or the journal. -/
inductive Observer where
  | nobody
  | hook
  | journal
  deriving DecidableEq, Repr

namespace Observer

variable {σ : Type}

/-- A statement with the secrets among its values masked. -/
def masked (s : Statement) : Statement :=
  { s with arguments := Secret.redactAll s.arguments }

/-- Tell of one statement. -/
def tell (o : Observer) (elapsed : Binary64) (s : Statement) : Action σ Unit :=
  match o with
  | .nobody => return ()
  | .hook => Action.report ⟨masked s, elapsed⟩
  | .journal => Action.log (.statement (masked s) elapsed)

/-- Tell of statements that began at a time, in order. -/
def conclude (o : Observer) (began : Journal.Micros) (statements : List Statement) :
    Action σ Unit := do
  let ended ← Action.now
  statements.forM (o.tell (Journal.millis (ended - began)))

/-- Run the body and tell of its statements. -/
def watch {α : Type} (o : Observer) (statements : List Statement) (body : Action σ α) :
    Action σ α := do
  let began ← Action.now
  Action.always body (o.conclude began statements)

end Observer

/-- How a query is run: its rows collected, or fetched one by one. -/
inductive Runner where
  | collecting
  | streaming
  deriving DecidableEq, Repr

/-- What a caller wants to have executed. -/
inductive Executable where
  | statement (s : Statement)
  | query (q : Query Runner)
  | other (v : Value)

/-- The statement to execute; only statements and queries have one. -/
def Executable.toStatement : Executable → Except Fault Statement
  | .statement s => .ok s
  | .query q => .ok q.statement
  | .other v => .error (.notStatement v.kindName)

/-- A session with a database. -/
structure Session (σ : Type) where
  adapter : Adapter σ
  strict : Bool := false
  observer : Observer := .nobody

namespace Session

variable {σ : Type}

/-- The address of a session that is given none. -/
def defaultAddress : String := "sqlite:///:memory:"

/-- The settings of a session that is given an address, or none. -/
def settingsOf (address : Option String) : Except Fault Settings :=
  Settings.ofDataSource ((address.filter (· != "")).getD defaultAddress) []

/-- Connect to the database. -/
def connect (s : Session σ) (settings : Settings) : Action σ Unit := s.adapter.connect settings

/-- Give up the connection. -/
def close (s : Session σ) : Action σ Unit := s.adapter.close

/-- Run a statement and tell of it. -/
def run (s : Session σ) (statement : Statement) : Action σ Result :=
  s.observer.watch [statement] (s.adapter.run statement)

/-- Run what a caller gives. -/
def execute (s : Session σ) (x : Executable) : Action σ Result := do
  s.run (← Action.ofExcept x.toStatement)

/-- That a batch has failed. -/
def batchFailed (count : Nat) : Journal.Entry where
  level := .warning
  speaker := "session"
  message := "Batch of " ++ toString count ++ " statement(s) failed; rolling back"

/-- Run statements inside one transaction, which is rolled back if one of them fails. -/
def batch (s : Session σ) (xs : List Executable) : Action σ (List Result) := do
  let statements ← Action.ofExcept (xs.mapM Executable.toStatement)
  if statements.isEmpty then return []
  else s.observer.watch statements do
    s.adapter.begin
    let results ← Action.onFault (statements.mapM s.adapter.run) fun _ => do
      Action.log (batchFailed statements.length)
      s.adapter.rollback
    s.adapter.commit
    return results

end Session
end Querywright
