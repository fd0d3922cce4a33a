/-
  Batches: the calls that a batch makes on its adapter, whatever fails.

  * `Transacted`: the runs that are possible. The transaction does not begin; or a statement fails
    and the transaction is rolled back; or every statement runs and the transaction is committed,
    if that does not fail.
  * `batch_protocol`: every batch runs so, and gives results exactly when no call failed.
-/
import Querywright.Proofs.Outcome
import Querywright.Proofs.Session.Recording

namespace Querywright

open Adapter (Answer Event Recorded)

variable {σ : Type}

/-- A statement that has run, with its result. -/
abbrev Ran := Statement × Result

/-- The call of a statement that has run. -/
def Ran.event (p : Ran) : Event := ⟨.run p.1, .ok (.result p.2)⟩

@[simp] theorem Ran.succeeded_event (p : Ran) : p.event.succeeded = true := rfl

theorem Ran.succeeded_events (ran : List Ran) : ∀ e ∈ ran.map Ran.event, e.succeeded = true :=
  List.forall_mem_map.2 fun p _ => Ran.succeeded_event p

/-- The calls that begin a transaction, commit it and roll it back. -/
structure Brackets where
  begin : Adapter.Call
  commit : Adapter.Call
  rollback : Adapter.Call

/-- The calls of an adapter's own. -/
def Brackets.own : Brackets := ⟨.begin, .commit, .rollback⟩

/-- The calls of statements inside one transaction, and the outcome. -/
inductive Transacted (b : Brackets) :
    List Statement → List Event → Except Fault (List Result) → Prop where
  | notBegun {statements : List Statement} (e : Fault) :
      Transacted b statements [⟨b.begin, .error e⟩] (.error e)
  | undone (begun : Answer) (ran : List Ran) (failing : Statement) (rest : List Statement)
      (e : Fault) (rollback : Except Fault Answer) :
      Transacted b (ran.map Prod.fst ++ failing :: rest)
        (⟨b.begin, .ok begun⟩ :: ran.map Ran.event
          ++ [⟨.run failing, .error e⟩, ⟨b.rollback, rollback⟩])
        (.error (Action.faultAfter e rollback))
  | ended (begun : Answer) (ran : List Ran) (commit : Except Fault Answer) :
      Transacted b (ran.map Prod.fst)
        (⟨b.begin, .ok begun⟩ :: ran.map Ran.event ++ [⟨b.commit, commit⟩])
        (commit.map fun _ => ran.map Prod.snd)

/-- There are results exactly when every call succeeded. -/
theorem Transacted.ok_iff {b : Brackets} {statements : List Statement} {events : List Event}
    {r : Except Fault (List Result)} (h : Transacted b statements events r) :
    (∃ results, r = .ok results) ↔ ∀ e ∈ events, e.succeeded = true := by
  cases h with
  | notBegun e => simp
  | undone begun ran failing rest e rollback =>
    simp [List.forall_mem_append, List.forall_mem_cons, -List.mem_append, -List.mem_cons]
  | ended begun ran commit =>
    simp only [List.forall_mem_append, List.forall_mem_cons, List.forall_mem_map,
      Ran.succeeded_event]
    cases commit <;> simp [Except.map]

/-! ## Statements one after the other -/

/-- The calls of statements that run until one fails, and their results. -/
inductive Runs : List Statement → List Event → Except Fault (List Result) → Prop where
  | done (ran : List Ran) : Runs (ran.map Prod.fst) (ran.map Ran.event) (.ok (ran.map Prod.snd))
  | stopped (ran : List Ran) (failing : Statement) (rest : List Statement) (e : Fault) :
      Runs (ran.map Prod.fst ++ failing :: rest)
        (ran.map Ran.event ++ [⟨.run failing, .error e⟩]) (.error e)

theorem Runs.cons {statements : List Statement} {events : List Event}
    {r : Except Fault (List Result)} (first : Statement) (x : Result)
    (h : Runs statements events r) :
    Runs (first :: statements) (Ran.event (first, x) :: events) (r.map (x :: ·)) := by
  cases h with
  | done ran => exact .done ((first, x) :: ran)
  | stopped ran failing rest e => exact .stopped ((first, x) :: ran) failing rest e

theorem mapM_runs {a : Adapter σ} {statements : List Statement} {w w' : World (Recorded σ)}
    {r : Except Fault (List Result)} (h : statements.mapM a.recording.run w = (r, w')) :
    ∃ events, w'.events = w.events ++ events ∧ Runs statements events r := by
  induction statements generalizing w w' r with
  | nil =>
    cases h
    exact ⟨[], (List.append_nil _).symm, .done []⟩
  | cons first rest ih =>
    rw [List.mapM_cons] at h
    rcases ha : a.run first w.plain with ⟨r₁, w₁⟩
    have hfirst : a.recording.run first w
        = (r₁, w₁.recorded (w.events ++ [⟨.run first, r₁.map .result⟩])) := Adapter.noting_eq ha
    cases r₁ with
    | error e =>
      rw [Action.bind_of_error hfirst] at h
      cases h
      exact ⟨_, rfl, .stopped [] first rest e⟩
    | ok x =>
      rw [Action.bind_of_ok hfirst] at h
      rcases hrest : rest.mapM a.recording.run (w₁.recorded (w.events ++ [Ran.event (first, x)]))
        with ⟨r₂, w₂⟩
      obtain ⟨events, hevents, hruns⟩ := ih hrest
      cases h.symm.trans (Action.bind_pure_of_eq hrest)
      refine ⟨Ran.event (first, x) :: events, ?_, hruns.cons first x⟩
      rw [hevents, World.events_recorded, List.append_assoc]
      rfl

/-! ## Batches -/

namespace Session

/-- The calls that a batch makes on its adapter, with their answers. -/
def batchEvents (s : Session σ) (xs : List Executable) (w : World σ) : List Event :=
  (s.recording.batch xs (w.recorded [])).2.events

theorem batch_eq_recording (s : Session σ) (xs : List Executable) (w : World σ) :
    s.batch xs w = ((s.recording.batch xs (w.recorded [])).1,
      (s.recording.batch xs (w.recorded [])).2.plain) :=
  (shadows_batch s xs).eq w

/-- The statements of a batch between the begin of its transaction and its end. -/
theorem statements_run {a : Adapter σ} {statements : List Statement} {failed : Journal.Entry}
    {w w' : World (Recorded σ)} {r : Except Fault (List Result)}
    (h : (do
        a.recording.begin
        let results ← Action.onFault (statements.mapM a.recording.run) fun _ => do
          Action.log failed
          a.recording.rollback
        a.recording.commit
        return results : Action (Recorded σ) (List Result)) w = (r, w')) :
    ∃ events, w'.events = w.events ++ events ∧ Transacted .own statements events r := by
  let answered (r : Except Fault Unit) : Except Fault Answer := r.map fun _ => .done
  rcases hbegin : a.begin w.plain with ⟨r₁, w₁⟩
  have hbegun : a.recording.begin w
      = (r₁, w₁.recorded (w.events ++ [⟨.begin, answered r₁⟩])) := Adapter.noting_eq hbegin
  cases r₁ with
  | error e =>
    rw [Action.bind_of_error hbegun] at h
    cases h
    exact ⟨_, rfl, .notBegun e⟩
  | ok u =>
    rw [Action.bind_of_ok hbegun] at h
    rcases hrun : statements.mapM a.recording.run
      (w₁.recorded (w.events ++ [⟨.begin, answered (.ok u)⟩])) with ⟨r₂, w₂⟩
    obtain ⟨events, hevents, hruns⟩ := mapM_runs hrun
    -- How far the statements ran decides which end the transaction is sent.
    cases hruns with
    | stopped ran failing rest e =>
      let told : World (Recorded σ) := { w₂ with journal := w₂.journal ++ [failed] }
      rcases hback : a.rollback told.plain with ⟨r₃, w₃⟩
      have hundone : a.recording.rollback told
          = (r₃, w₃.recorded (w₂.events ++ [⟨.rollback, answered r₃⟩])) := Adapter.noting_eq hback
      have hlogged : Action.log failed w₂ = (.ok (), told) := rfl
      rw [Action.bind_of_error (Action.onFault_of_error hrun
        ((Action.bind_of_ok hlogged).trans hundone))] at h
      cases h
      refine ⟨⟨.begin, .ok .done⟩ :: ran.map Ran.event
        ++ [⟨.run failing, .error e⟩, ⟨.rollback, answered r₃⟩], ?_, ?_⟩
      · simp [hevents, answered, Except.map]
      · rw [← Action.faultAfter_map e (fun _ => Answer.done) r₃]
        exact .undone .done ran failing rest e (answered r₃)
    | done ran =>
      rcases hcommit : a.commit w₂.plain with ⟨r₃, w₃⟩
      have hended : a.recording.commit w₂
          = (r₃, w₃.recorded (w₂.events ++ [⟨.commit, answered r₃⟩])) := Adapter.noting_eq hcommit
      rw [Action.bind_of_ok (Action.onFault_of_ok hrun)] at h
      cases h.symm.trans (Action.bind_pure_of_eq hended)
      refine ⟨⟨.begin, .ok .done⟩ :: ran.map Ran.event ++ [⟨.commit, answered r₃⟩], ?_, ?_⟩
      · simp [hevents, answered, Except.map]
      · cases r₃ with
        | error e => exact .ended .done ran (.error e)
        | ok u => exact .ended .done ran (.ok .done)

/-- Something that is no statement is refused before the first call. -/
theorem toStatement_refused {xs : List Executable} {v : Value} (h : .other v ∈ xs) :
    ∃ e : Fault, e.label = "TypeError" ∧ xs.mapM Executable.toStatement = .error e := by
  induction xs with
  | nil => cases h
  | cons x xs ih =>
    rw [List.mapM_cons]
    rcases List.mem_cons.1 h with rfl | hrest
    · exact ⟨.notStatement v.kindName, rfl, rfl⟩
    · obtain ⟨e, hlabel, he⟩ := ih hrest
      rw [he]
      cases x with
      | other v' => exact ⟨.notStatement v'.kindName, rfl, rfl⟩
      | statement s => exact ⟨e, hlabel, rfl⟩
      | query q => exact ⟨e, hlabel, rfl⟩

/-- Without statements to run, a batch makes no call. -/
theorem batch_refused (s : Session σ) {xs : List Executable} {e : Fault}
    (h : xs.mapM Executable.toStatement = .error e) (w : World σ) :
    s.batch xs w = (.error e, w) ∧ s.batchEvents xs w = [] := by
  have hrefused (τ : Type) (s : Session τ) (w : World τ) : s.batch xs w = (.error e, w) := by
    refine Action.bind_of_error (?_ : Action.ofExcept _ w = _)
    rw [h]
    rfl
  refine ⟨hrefused σ s w, ?_⟩
  rw [batchEvents, hrefused]
  rfl

theorem exists_toStatement {xs : List Executable} (h : ∀ v, .other v ∉ xs) :
    ∃ statements, xs.mapM Executable.toStatement = .ok statements := by
  induction xs with
  | nil => exact ⟨[], rfl⟩
  | cons x xs ih =>
    obtain ⟨statements, hrest⟩ := ih fun v hv => h v (List.mem_cons_of_mem x hv)
    rw [List.mapM_cons, hrest]
    cases x with
    | other v => exact absurd List.mem_cons_self (h v)
    | statement s => exact ⟨s :: statements, rfl⟩
    | query q => exact ⟨q.statement :: statements, rfl⟩

theorem batch_run (s : Session σ) {xs : List Executable} {statements : List Statement}
    (hxs : xs ≠ []) (h : xs.mapM Executable.toStatement = .ok statements) (w : World σ) :
    Transacted .own statements (s.batchEvents xs w) (s.batch xs w).1 := by
  have hlength : statements.length = xs.length := length_of_mapM_eq_ok h
  cases statements with
  | nil => exact absurd (List.length_eq_zero_iff.1 hlength.symm) hxs
  | cons first rest =>
    rcases hrun : s.recording.batch xs (w.recorded []) with ⟨r, w'⟩
    have hread : Action.ofExcept (xs.mapM Executable.toStatement) (w.recorded [])
        = (.ok (first :: rest), w.recorded []) := by rw [h]; rfl
    have hwatch := (Action.bind_of_ok hread).symm.trans hrun
    obtain ⟨w₁, hbody, hpeer⟩ := watch_eq hwatch
    obtain ⟨events, hevents, hbatch⟩ := statements_run hbody
    -- Telling the hook leaves the peer as it was, and the record of calls with it.
    have hall : w'.events = events := (congrArg Recorded.events hpeer).trans hevents
    rw [batchEvents, batch_eq_recording s xs w, hrun, hall]
    exact hbatch

theorem batchEvents_cases (s : Session σ) (xs : List Executable) (w : World σ) :
    s.batchEvents xs w = [] ∨ ∃ statements, xs.mapM Executable.toStatement = .ok statements ∧
      Transacted .own statements (s.batchEvents xs w) (s.batch xs w).1 := by
  by_cases hxs : xs = []
  · subst hxs
    exact .inl rfl
  · cases h : xs.mapM Executable.toStatement with
    | error e => exact .inl (s.batch_refused h w).2
    | ok statements => exact .inr ⟨statements, rfl, s.batch_run hxs h w⟩

end Session

end Querywright
