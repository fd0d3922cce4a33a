/-
  Actions: computations that may fail and that see a clock, a journal, reports and a peer.
  Whatever an action did before it failed stays done.

  * `always body last` runs `last` after `body` whether it failed or not.
  * `onFault body handle` runs `handle` only after a fault, and the fault goes on.
  * `timed` journals how long a body took.
-/
import Querywright.Fault
import Querywright.Journal.Basic

namespace Querywright

/-- A report of a statement that has run: the statement with its secrets masked, and the
milliseconds it took. -/
structure Report where
  statement : Statement
  elapsed : Binary64

/-- What actions see and change. -/
structure World (σ : Type) where
  clock : Journal.Micros := 0
  journal : List Journal.Entry := []
  reports : List Report := []
  peer : σ

/-- A computation in a world. -/
abbrev Action (σ α : Type) := ExceptT Fault (StateM (World σ)) α

namespace Action

variable {σ α : Type}

/-- The outcome of an action in a world, and the world after it. -/
def outcome (a : Action σ α) (w : World σ) : Except Fault α × World σ := a w

/-- The action with a known outcome. -/
def ofExcept (r : Except Fault α) : Action σ α := fun w => (r, w)

/-- The time. -/
def now : Action σ Journal.Micros := fun w => (.ok w.clock, w)

/-- Let time pass. -/
def pass (t : Journal.Micros) : Action σ Unit :=
  fun w => (.ok (), { w with clock := w.clock + t })

/-- Add an entry to the journal. -/
def log (e : Journal.Entry) : Action σ Unit :=
  fun w => (.ok (), { w with journal := w.journal ++ [e] })

/-- Add a report. -/
def report (r : Report) : Action σ Unit :=
  fun w => (.ok (), { w with reports := w.reports ++ [r] })

/-- The state of the peer. -/
def peer : Action σ σ := fun w => (.ok w.peer, w)

/-- Change the state of the peer. -/
def setPeer (f : σ → σ) : Action σ Unit := fun w => (.ok (), { w with peer := f w.peer })

/-- Run the last part after the body, whatever its outcome. A fault of the last part takes the
place of the body's outcome. -/
def always (body : Action σ α) (last : Action σ Unit) : Action σ α := fun w =>
  match body w with
  | (r, w) =>
    match last w with
    | (.ok (), w) => (r, w)
    | (.error e, w) => (.error e, w)

/-- Handle a fault of the body before it goes on. A fault of the handler takes its place. -/
def onFault (body : Action σ α) (handle : Fault → Action σ Unit) : Action σ α := fun w =>
  match body w with
  | (.ok a, w) => (.ok a, w)
  | (.error e, w) =>
    match handle e w with
    | (.ok (), w) => (.error e, w)
    | (.error later, w) => (.error later, w)

/-- The body with its faults reworded. -/
def mapFault (f : Fault → Fault) (body : Action σ α) : Action σ α := fun w =>
  match body w with
  | (.ok a, w) => (.ok a, w)
  | (.error e, w) => (.error (f e), w)

/-- Journal how long the body takes, also when it fails. The threshold is in milliseconds. -/
def timed (speaker name : String) (threshold : Int) (sql : Value) (arguments : List Value)
    (body : Action σ α) : Action σ α := do
  let start ← now
  always body do
    let stop ← now
    log (.timing speaker name (threshold * 1000) (stop - start) (some sql) (some arguments))

end Action
end Querywright
