/-
  Blocks inside a transaction that is begun and ended by statements of its own.

  * `Transaction.Around`: the ways in which such a block ends.
  * `forM_runs`: the calls of statements that are sent one after the other.
  * `around_transacted`: the calls of statements that are sent in a block.
-/
import Querywright.Proofs.Session.Control

namespace Querywright

open Adapter (Recorded)

variable {σ α : Type}

/-- A statement that is given as text, without values. -/
def Statement.plain (sql : String) : Statement := { query := .text sql }

/-- Statements that begin a transaction, commit it and roll it back. -/
def Brackets.sent : Brackets where
  begin := .run (.plain "BEGIN")
  commit := .run (.plain "COMMIT")
  rollback := .run (.plain "ROLLBACK")

theorem Brackets.sent_control : Brackets.sent.Control := ⟨rfl, rfl, rfl⟩

/-! ## Statements that are sent -/

namespace Session

/-- Run a statement and leave its result. -/
def send (s : Session σ) (statement : Statement) : Action σ Unit := do
  let _ ← s.run statement

theorem send_recording {s : Session σ} {statement : Statement} {w w' : World (Recorded σ)}
    {r : Except Fault Unit} (h : s.recording.send statement w = (r, w')) :
    ∃ r₁ : Except Fault Result, r = r₁.map (fun _ => ()) ∧
      w'.events = w.events ++ [⟨.run statement, r₁.map .result⟩] := by
  rcases hrun : s.recording.run statement w with ⟨r₁, w₂⟩
  have hevents := run_recording hrun
  cases h.symm.trans (Action.bind_pure_of_eq hrun)
  exact ⟨r₁, rfl, hevents⟩

/-- Statements that are sent run until one fails. -/
theorem forM_runs {s : Session σ} {statements : List Statement} {w w' : World (Recorded σ)}
    {r : Except Fault Unit} (h : statements.forM s.recording.send w = (r, w')) :
    ∃ events results, w'.events = w.events ++ events ∧ Runs statements events results ∧
      r = results.map fun _ => () := by
  induction statements generalizing w w' r with
  | nil =>
    cases h
    exact ⟨[], .ok [], (List.append_nil _).symm, .done [], rfl⟩
  | cons first rest ih =>
    rcases hfirst : s.recording.send first w with ⟨r₁, w₁⟩
    obtain ⟨answer, hr₁, hevents₁⟩ := send_recording hfirst
    cases answer with
    | error e =>
      cases hr₁
      cases (Action.bind_of_error hfirst).symm.trans h
      exact ⟨_, _, hevents₁, .stopped [] first rest e, rfl⟩
    | ok x =>
      cases hr₁
      obtain ⟨events, results, hevents, hruns, hr⟩ := ih ((Action.bind_of_ok hfirst).symm.trans h)
      refine ⟨_, _, ?_, hruns.cons first x, ?_⟩
      · rw [hevents, hevents₁, List.append_assoc]
        rfl
      · rw [hr]
        cases results <;> rfl

end Session

/-! ## Blocks inside a transaction -/

namespace Transaction

/-- The ways in which a block inside a transaction ends: the transaction does not begin, the block
fails and is rolled back, or the block ends and is committed. -/
inductive Around (s : Session σ) (block : Action σ α) (w : World σ) :
    Except Fault α → World σ → Prop where
  | notBegun {e : Fault} {w' : World σ} (hbegin : control s "BEGIN" w = (.error e, w')) :
      Around s block w (.error e) w'
  | undone {e : Fault} {w₁ w₂ w' : World σ} {r : Except Fault Unit}
      (hbegin : control s "BEGIN" w = (.ok (), w₁)) (hblock : block w₁ = (.error e, w₂))
      (hundo : control s "ROLLBACK" { w₂ with journal := w₂.journal ++ [rollingBack e] }
        = (r, w')) :
      Around s block w (.error (Action.faultAfter e r)) w'
  | ended {x : α} {w₁ w₂ w' : World σ} {r : Except Fault Unit}
      (hbegin : control s "BEGIN" w = (.ok (), w₁)) (hblock : block w₁ = (.ok x, w₂))
      (hcommit : control s "COMMIT" w₂ = (r, w')) :
      Around s block w (r.map fun _ => x) w'

theorem around_ends {s : Session σ} {block : Action σ α} {w w' : World σ} {r : Except Fault α}
    (h : around s block w = (r, w')) : Around s block w r w' := by
  rcases hbegin : control s "BEGIN" w with ⟨r₁, w₁⟩
  have hbegun : begin s {} w = (r₁.map fun _ => { active := true }, w₁) :=
    Action.bind_pure_of_eq hbegin
  cases r₁ with
  | error e =>
    cases (Action.bind_of_error hbegun).symm.trans h
    exact .notBegun hbegin
  | ok u =>
    have hrest := (Action.bind_of_ok hbegun).symm.trans h
    rcases hblock : block w₁ with ⟨r₂, w₂⟩
    cases r₂ with
    | error e =>
      let told : World σ := { w₂ with journal := w₂.journal ++ [rollingBack e] }
      rcases hundo : control s "ROLLBACK" told with ⟨r₃, w₃⟩
      have hlogged : Action.log (rollingBack e) w₂ = (.ok (), told) := rfl
      have hrolled : rollback s { active := true } told
          = (r₃.map fun _ => { active := false }, w₃) := Action.bind_pure_of_eq hundo
      have hleft : leave s { active := true } (some e) w₂
          = (r₃.map fun _ => { active := false }, w₃) := (Action.bind_of_ok hlogged).trans hrolled
      have hhandled := Action.bind_pure_of_eq (g := fun _ => ()) hleft
      cases (Action.bind_of_error (Action.onFault_of_error hblock hhandled)).symm.trans hrest
      cases r₃ with
      | error later => exact .undone (r := .error later) hbegin hblock hundo
      | ok u => exact .undone (r := .ok u) hbegin hblock hundo
    | ok x =>
      rcases hcommit : control s "COMMIT" w₂ with ⟨r₃, w₃⟩
      have hclosed : commit s { active := true } w₂
          = (r₃.map fun _ => { active := false }, w₃) := Action.bind_pure_of_eq hcommit
      have hend := (Action.bind_of_ok (Action.onFault_of_ok hblock)).symm.trans hrest
      cases (Action.bind_pure_of_eq hclosed).symm.trans hend
      cases r₃ with
      | error e => exact .ended (r := .error e) hbegin hblock hcommit
      | ok u => exact .ended (r := .ok u) hbegin hblock hcommit

theorem control_recording {s : Session σ} {sql : String} {w w' : World (Recorded σ)}
    {r : Except Fault Unit} (h : control s.recording sql w = (r, w')) :
    ∃ r₁ : Except Fault Result, r = r₁.map (fun _ => ()) ∧
      w'.events = w.events ++ [⟨.run (.plain sql), r₁.map .result⟩] :=
  Session.send_recording h

/-- Statements that are sent in a block. -/
theorem around_transacted {s : Session σ} {statements : List Statement}
    {w w' : World (Recorded σ)} {r : Except Fault Unit}
    (h : around s.recording (statements.forM s.recording.send) w = (r, w')) :
    ∃ events results, w'.events = w.events ++ events ∧
      Transacted .sent statements events results ∧ r = results.map fun _ => () := by
  cases around_ends h with
  | @notBegun e _ hbegin =>
    obtain ⟨begun, hr, hevents⟩ := control_recording hbegin
    cases begun with
    | ok x => cases hr
    | error e =>
      cases hr
      exact ⟨_, _, hevents, .notBegun e, rfl⟩
  | @undone e _ w₂ _ _ hbegin hblock hundo =>
    obtain ⟨begun, hr, hevents⟩ := control_recording hbegin
    obtain ⟨events, results, hblockEvents, hruns, hresults⟩ := Session.forM_runs hblock
    obtain ⟨rollback, hrollback, hundone⟩ := control_recording hundo
    cases begun with
    | error e => cases hr
    | ok x =>
      cases hruns with
      | done ran => cases hresults
      | stopped ran failing rest _ =>
        cases hresults
        refine ⟨_, _, ?_, .undone (.result x) ran failing rest e (rollback.map .result), ?_⟩
        · have htold : w'.events
              = w₂.events ++ [⟨.run (.plain "ROLLBACK"), rollback.map .result⟩] := hundone
          simp [htold, hblockEvents, hevents, Except.map, Brackets.sent]
        · rw [hrollback, Action.faultAfter_map, Action.faultAfter_map]
          rfl
  | ended hbegin hblock hcommit =>
    obtain ⟨begun, hr, hevents⟩ := control_recording hbegin
    obtain ⟨events, results, hblockEvents, hruns, hresults⟩ := Session.forM_runs hblock
    obtain ⟨commit, hr', hended⟩ := control_recording hcommit
    cases begun with
    | error e => cases hr
    | ok x =>
      cases hruns with
      | stopped ran failing rest e => cases hresults
      | done ran =>
        refine ⟨_, _, ?_, .ended (.result x) ran (commit.map .result), ?_⟩
        · simp [hended, hblockEvents, hevents, Except.map, Brackets.sent]
        · rw [hr']
          cases commit <;> rfl

end Transaction

end Querywright
