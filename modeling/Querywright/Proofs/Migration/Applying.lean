/-
  Applying migrations: the calls that it makes on its adapter, whatever fails.

  * `Applied`: migrations one after the other, each in a transaction, until one fails.
  * `ApplyRun`: the runs that are possible. `apply_run`: every run is one of them.
  * `apply_history`: the calls of a run lead from the state before it to the state after it.
-/
import Querywright.Proofs.Migration.Statements

namespace Querywright.Migrations

open Adapter (Event Recorded)

variable {σ : Type}

/-- The calls of migrations that are applied one after the other until one fails. -/
inductive Applied (m : Migrations) :
    List Migration → List Event → Except Fault Unit → Prop where
  | done : Applied m [] [] (.ok ())
  | stopped {x : Migration} {rest : List Migration} {events : List Event} {e : Fault}
      (h : Transacted .sent (m.statements x) events (.error e)) :
      Applied m (x :: rest) events (.error e)
  | next {x : Migration} {rest : List Migration} {block events : List Event}
      {results : List Result} {r : Except Fault Unit}
      (h : Transacted .sent (m.statements x) block (.ok results))
      (hrest : Applied m rest events r) :
      Applied m (x :: rest) (block ++ events) r

/-- The calls that read the recorded names: the table may not be defined, and not be read. -/
inductive NamesRead (m : Migrations) (d : Dialect) :
    List Event → Except Fault (List Value) → Prop where
  | undefined (e : Fault) : NamesRead m d [⟨.run (m.definition d), .error e⟩] (.error e)
  | unread (defined : Result) (e : Fault) :
      NamesRead m d [⟨.run (m.definition d), .ok (.result defined)⟩, ⟨.run m.reading, .error e⟩]
        (.error e)
  | read (defined table : Result) :
      NamesRead m d [⟨.run (m.definition d), .ok (.result defined)⟩,
        ⟨.run m.reading, .ok (.result table)⟩] (table.collected.rows.mapM recordedName)

/-- The calls of a run, and its outcome. In a table without a name nothing is sent. Otherwise the
names are read, and the migrations that are not among them are applied. -/
inductive ApplyRun (m : Migrations) (d : Dialect) :
    List Event → Except Fault (List Migration) → Prop where
  | unnamed (h : ¬m.Named) (e : Fault) : ApplyRun m d [] (.error e)
  | unread {events : List Event} {e : Fault} (h : NamesRead m d events (.error e)) :
      ApplyRun m d events (.error e)
  | applied {first events : List Event} {names : List Value} {r : Except Fault Unit}
      (h : NamesRead m d first (.ok names)) (happlied : Applied m (m.unrecorded names) events r) :
      ApplyRun m d (first ++ events) (r.map fun _ => m.unrecorded names)

theorem NamesRead.uncontrolled {m : Migrations} {d : Dialect} {events : List Event}
    {r : Except Fault (List Value)} (h : NamesRead m d events r) :
    ∀ e ∈ events, e.call.control? = none := by
  cases h <;> simp [m.definition_uncontrolled, m.reading_uncontrolled]

theorem NamesRead.clean {m : Migrations} {d : Dialect} {events : List Event} {names : List Value}
    (h : NamesRead m d events (.ok names)) : Clean events := by
  refine .of_uncontrolled ?_ h.uncontrolled
  generalize hr : Except.ok names = r at h
  cases h with
  | undefined e => cases hr
  | unread defined e => cases hr
  | read defined table => simp

/-! ## The record of a run -/

section

variable (s : Session σ) (m : Migrations)

theorem shadows_runQuery (q : Except Fault (Query Runner)) :
    Shadows s.adapter (runQuery s.recording q) (runQuery s q) :=
  (shadows_ofExcept q).bind fun q => shadows_run s q.statement

theorem shadows_prepare : Shadows s.adapter (prepare s.recording m) (prepare s m) :=
  (shadows_runQuery s _).bind fun _ => shadows_pure ()

theorem shadows_unapplied : Shadows s.adapter (unapplied s.recording m) (unapplied s m) := by
  refine Shadows.bind ?_ fun rows => (shadows_ofExcept _).bind fun names => shadows_pure _
  exact (shadows_prepare s m).bind fun _ => (shadows_runQuery s _).bind fun _ => shadows_pure _

theorem shadows_perform (x : Migration) :
    Shadows s.adapter (perform s.recording m x) (perform s m x) := by
  refine (Shadows.forM (fun sql => ?_) _).bind fun _ => ?_
  · exact (shadows_runQuery s _).bind fun _ => shadows_pure ()
  · exact (shadows_runQuery s _).bind fun _ => shadows_pure ()

theorem shadows_applyEach (xs : List Migration) :
    Shadows s.adapter (applyEach s.recording m xs) (applyEach s m xs) := by
  induction xs with
  | nil => exact shadows_pure ()
  | cons x rest ih =>
    exact (shadows_log _).bind fun _ => (shadows_around s (shadows_perform s m x)).bind fun _ => ih

theorem shadows_apply : Shadows s.adapter (apply s.recording m) (apply s m) := by
  refine (shadows_unapplied s m).bind fun pending =>
    (shadows_applyEach s m pending).bind fun _ => ?_
  dsimp only
  split
  · exact (shadows_log _).bind fun _ => shadows_pure pending
  · exact shadows_pure pending

/-- The calls that applying makes on its adapter, with their answers. -/
def applyEvents (w : World σ) : List Event := (apply s.recording m (w.recorded [])).2.events

theorem apply_eq_recording (w : World σ) :
    apply s m w = ((apply s.recording m (w.recorded [])).1,
      (apply s.recording m (w.recorded [])).2.plain) :=
  (shadows_apply s m).eq w

theorem apply_history (w : World σ) :
    s.adapter.History w.peer (applyEvents s m w) (apply s m w).2.peer :=
  (shadows_apply s m).history w

end

/-! ## The calls of a run -/

theorem applyEach_applied {s : Session σ} {m : Migrations} (hnamed : m.Named)
    {xs : List Migration} {w w' : World (Recorded σ)} {r : Except Fault Unit}
    (h : applyEach s.recording m xs w = (r, w')) :
    ∃ events, w'.events = w.events ++ events ∧ Applied m xs events r := by
  induction xs generalizing w w' r with
  | nil =>
    cases h
    exact ⟨[], (List.append_nil _).symm, .done⟩
  | cons x rest ih =>
    let told : World (Recorded σ) := { w with journal := w.journal ++ [applying x] }
    have hlogged : Action.log (applying x) w = (.ok (), told) := rfl
    have hall := (Action.bind_of_ok hlogged).symm.trans h
    rcases hblock : Transaction.around s.recording (perform s.recording m x) told with ⟨r₁, w₁⟩
    rw [perform_eq s.recording m x hnamed] at hblock hall
    obtain ⟨block, results, hevents, htransacted, hr₁⟩ := Transaction.around_transacted hblock
    cases results with
    | error e =>
      cases hr₁
      cases (Action.bind_of_error hblock).symm.trans hall
      exact ⟨block, hevents, .stopped htransacted⟩
    | ok results =>
      cases hr₁
      obtain ⟨events, hrest, happlied⟩ := ih ((Action.bind_of_ok hblock).symm.trans hall)
      refine ⟨block ++ events, ?_, .next htransacted happlied⟩
      rw [hrest, hevents, List.append_assoc]
      rfl

theorem unapplied_read {s : Session σ} {m : Migrations} (hnamed : m.Named)
    {w w' : World (Recorded σ)} {r : Except Fault (List Migration)}
    (h : unapplied s.recording m w = (r, w')) :
    ∃ events names, w'.events = w.events ++ events ∧
      NamesRead m s.adapter.dialect events names ∧ r = names.map m.unrecorded := by
  have hunapplied : unapplied s.recording m = (do
      s.recording.send (m.definition s.adapter.dialect)
      let table ← s.recording.run m.reading
      let names ← Action.ofExcept (table.collected.rows.mapM recordedName)
      return m.unrecorded names) := by
    simp only [unapplied, applied_eq s.recording m hnamed, bind_assoc, pure_bind]
    rfl
  rw [hunapplied] at h
  rcases hdefine : s.recording.send (m.definition s.adapter.dialect) w with ⟨r₁, w₁⟩
  obtain ⟨defined, hr₁, hdefined⟩ := Session.send_recording hdefine
  cases defined with
  | error e =>
    cases hr₁
    cases (Action.bind_of_error hdefine).symm.trans h
    exact ⟨_, _, hdefined, .undefined e, rfl⟩
  | ok defined =>
    cases hr₁
    have h₁ := (Action.bind_of_ok hdefine).symm.trans h
    rcases hread : s.recording.run m.reading w₁ with ⟨r₂, w₂⟩
    have hreading := Session.run_recording hread
    rw [hdefined, List.append_assoc] at hreading
    cases r₂ with
    | error e =>
      cases (Action.bind_of_error hread).symm.trans h₁
      exact ⟨_, _, hreading, .unread defined e, rfl⟩
    | ok table =>
      have h₂ := (Action.bind_of_ok hread).symm.trans h₁
      have hnames : Action.ofExcept (table.collected.rows.mapM recordedName) w₂
          = (table.collected.rows.mapM recordedName, w₂) := rfl
      cases (Action.bind_pure_of_eq hnames).symm.trans h₂
      exact ⟨_, _, hreading, .read defined table, rfl⟩

/-- What applying does on its adapter. -/
theorem apply_run (s : Session σ) (m : Migrations) (w : World σ) :
    ApplyRun m s.adapter.dialect (applyEvents s m w) (apply s m w).1 := by
  rw [apply_eq_recording, applyEvents]
  rcases hrun : apply s.recording m (w.recorded []) with ⟨r, w'⟩
  by_cases hnamed : m.Named
  · rcases hunapplied : unapplied s.recording m (w.recorded []) with ⟨r₁, w₁⟩
    obtain ⟨first, names, hfirst, hread, hr₁⟩ := unapplied_read hnamed hunapplied
    cases names with
    | error e =>
      cases hr₁
      cases (Action.bind_of_error hunapplied).symm.trans hrun
      rw [hfirst]
      exact .unread hread
    | ok names =>
      cases hr₁
      have happly := (Action.bind_of_ok hunapplied).symm.trans hrun
      rcases heach : applyEach s.recording m (m.unrecorded names) w₁ with ⟨r₂, w₂⟩
      obtain ⟨events, hevents, happlied⟩ := applyEach_applied hnamed heach
      have hall : w₂.events = first ++ events := by rw [hevents, hfirst]; rfl
      cases r₂ with
      | error e =>
        cases (Action.bind_of_error heach).symm.trans happly
        rw [hall]
        exact .applied hread happlied
      | ok u =>
        have hlast := (Action.bind_of_ok heach).symm.trans happly
        have hended : ApplyRun m s.adapter.dialect w₂.events (.ok (m.unrecorded names)) := by
          rw [hall]
          exact .applied hread happlied
        dsimp only at hlast
        split at hlast
        · cases hlast
          exact hended
        · cases hlast
          exact hended
  · obtain ⟨e, he⟩ := prepare_unnamed s.recording m hnamed (w.recorded [])
    have hunapplied : unapplied s.recording m (w.recorded []) = (.error e, w.recorded []) :=
      Action.bind_of_error (Action.bind_of_error he)
    cases (Action.bind_of_error hunapplied).symm.trans hrun
    exact .unnamed hnamed e

end Querywright.Migrations
