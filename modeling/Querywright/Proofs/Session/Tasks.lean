/-
  Tasks of a session in any order: statements and batches are executed, and streams are asked for,
  read row by row and closed while others are open. A fault ends the task that meets it and no more.

  * `Session.serve` does one task, `Session.serveAll` one after the other.
  * `Session.responses` and `Session.after`: what the tasks of a new session come to. Each of them
    has a response (`length_responses`).
-/
import Querywright.Proofs.Action
import Querywright.Session.Stream

namespace Querywright

variable {σ α : Type}

/-- The outcome of the action, whatever it is. -/
def Action.attempt (a : Action σ α) : Action σ (Except Fault α) := fun w =>
  match a w with
  | (r, w) => (.ok r, w)

theorem Action.attempt_of_eq {a : Action σ α} {r : Except Fault α} {w w' : World σ}
    (h : a w = (r, w')) : attempt a w = (.ok r, w') := by
  rw [attempt, h]

namespace Session

/-- Something to do for a caller. The iterators of streams are numbered in the order they were
asked for. -/
inductive Task where
  | execute (x : Executable)
  | batch (xs : List Executable)
  /-- Ask for a stream. What cannot be executed is only refused when its first row is asked for. -/
  | lazy (x : Executable)
  /-- Ask an iterator for its next row. -/
  | next (i : Nat)
  | close (i : Nat)
  /-- Let time pass. -/
  | wait (t : Journal.Micros)

/-- What a task gives. -/
inductive Response where
  | result (r : Result)
  | results (rs : List Result)
  | iterator
  | row (row : Option Entries)
  | done

/-- What an iterator goes over: a stream, or a fault that is met at its first step. -/
abbrev Iterator := Except Fault Stream

/-- The next row of an iterator, and the iterator after it. -/
def step (s : Session σ) (it : Iterator) : Action σ (Option Entries × Iterator) := do
  let (row, stream) ← Stream.next s (← Action.ofExcept it)
  return (row, .ok stream)

/-- Close an iterator. -/
def closeIterator (s : Session σ) : Iterator → Action σ Unit
  | .ok stream => Stream.close s stream
  | .error _ => return ()

/-- Do a task with these iterators, and go on with those. An iterator ends with its first fault. -/
def serve (s : Session σ) (its : List Iterator) :
    Task → Action σ (Except Fault Response × List Iterator)
  | .execute x => do return ((← Action.attempt (s.execute x)).map .result, its)
  | .batch xs => do return ((← Action.attempt (s.batch xs)).map .results, its)
  | .lazy x => return (.ok .iterator, its ++ [x.toStatement.map .waiting])
  | .next i =>
    match its[i]? with
    | none => return (.error .noIndex, its)
    | some it => do
      match ← Action.attempt (s.step it) with
      | .ok (row, it) => return (.ok (.row row), its.set i it)
      | .error e => return (.error e, its.set i (.ok .ended))
  | .close i =>
    match its[i]? with
    | none => return (.error .noIndex, its)
    | some it => do
      return ((← Action.attempt (s.closeIterator it)).map fun _ => .done, its.set i (.ok .ended))
  | .wait t => do
    Action.pass t
    return (.ok .done, its)

/-- Do tasks one after the other. -/
def serveAll (s : Session σ) (its : List Iterator) :
    List Task → Action σ (List (Except Fault Response) × List Iterator)
  | [] => return ([], its)
  | task :: rest => do
    let (response, its) ← s.serve its task
    let (responses, its) ← serveAll s its rest
    return (response :: responses, its)

/-- The responses to the tasks of a new session. -/
def responses (s : Session σ) (tasks : List Task) (w : World σ) : List (Except Fault Response) :=
  match (s.serveAll [] tasks w).1 with
  | .ok (responses, _) => responses
  | .error _ => []

/-- The world after the tasks of a new session. -/
def after (s : Session σ) (tasks : List Task) (w : World σ) : World σ :=
  (s.serveAll [] tasks w).2

variable (s : Session σ)

theorem serve_responds (its : List Iterator) (task : Task) (w : World σ) :
    ∃ p w', s.serve its task w = (.ok p, w') := by
  cases task with
  | execute x => exact ⟨_, _, rfl⟩
  | batch xs => exact ⟨_, _, rfl⟩
  | lazy x => exact ⟨_, _, rfl⟩
  | next i =>
    rw [serve]
    cases its[i]? with
    | none => exact ⟨_, _, rfl⟩
    | some it =>
      dsimp only
      rcases hstep : s.step it w with ⟨r, w'⟩
      rw [Action.bind_of_ok (Action.attempt_of_eq hstep)]
      rcases r with e | ⟨row, it'⟩ <;> exact ⟨_, _, rfl⟩
  | close i =>
    rw [serve]
    cases its[i]? with
    | none => exact ⟨_, _, rfl⟩
    | some it => exact ⟨_, _, rfl⟩
  | wait t => exact ⟨_, _, rfl⟩

theorem serveAll_responds (its : List Iterator) (tasks : List Task) (w : World σ) :
    ∃ rs its' w', s.serveAll its tasks w = (.ok (rs, its'), w') ∧ rs.length = tasks.length := by
  induction tasks generalizing its w with
  | nil => exact ⟨_, _, _, rfl, rfl⟩
  | cons task rest ih =>
    obtain ⟨⟨r, its₁⟩, w₁, hfirst⟩ := s.serve_responds its task w
    obtain ⟨rs, its₂, w₂, hrest, hlength⟩ := ih its₁ w₁
    refine ⟨r :: rs, its₂, w₂, ?_, congrArg (· + 1) hlength⟩
    rw [serveAll, Action.bind_of_ok hfirst]
    exact Action.bind_of_ok hrest

/-- Each task has a response. -/
theorem length_responses (tasks : List Task) (w : World σ) :
    (s.responses tasks w).length = tasks.length := by
  obtain ⟨rs, its, w', h, hlength⟩ := s.serveAll_responds [] tasks w
  rw [Session.responses, h]
  exact hlength

end Session
end Querywright
