/-
  Sessions whose calls are recorded: every call on the adapter is noted with its answer, in order,
  and nothing else changes.

  * `Session.recording` is a session over an adapter that notes its calls.
  * `Adapter.History`: calls that the adapter answers one after the other.
  * `Shadows`: the recorded action does what the plain one does, and adds a history to the record.
    Running a statement, a batch and a transaction are so (`shadows_run`, `shadows_batch`,
    `shadows_around`).
  * `Session.run_recording` says what one statement adds to the record.
-/
import Querywright.Proofs.Action
import Querywright.Session.Transaction

namespace Querywright

namespace Adapter

/-- A call on an adapter. -/
inductive Call where
  | connect (settings : Settings)
  | close
  | execute (sql : Value) (values : List Value)
  | run (s : Statement)
  | stream (s : Statement)
  | closeCursor (cursor : Cursor)
  | begin
  | commit
  | rollback

/-- What a call gives. -/
inductive Answer where
  | done
  | cursor (c : Cursor)
  | result (r : Result)

/-- A call with what came of it. -/
structure Event where
  call : Call
  answer : Except Fault Answer

/-- Whether the call succeeded. -/
def Event.succeeded (e : Event) : Bool := e.answer.isOk

@[simp] theorem succeeded_ok (call : Call) (answer : Answer) :
    Event.succeeded ⟨call, .ok answer⟩ = true := rfl

@[simp] theorem succeeded_error (call : Call) (e : Fault) :
    Event.succeeded ⟨call, .error e⟩ = false := rfl

/-- A state with the calls that were made on the way to it. -/
structure Recorded (σ : Type) where
  events : List Event := []
  state : σ

end Adapter

open Adapter (Recorded)

variable {σ α β : Type}

namespace World

/-- The world without the record. -/
def plain (w : World (Recorded σ)) : World σ where
  clock := w.clock
  journal := w.journal
  reports := w.reports
  peer := w.peer.state

/-- The world with a record. -/
def recorded (events : List Adapter.Event) (w : World σ) : World (Recorded σ) where
  clock := w.clock
  journal := w.journal
  reports := w.reports
  peer := ⟨events, w.peer⟩

/-- What has been recorded. -/
def events (w : World (Recorded σ)) : List Adapter.Event := w.peer.events

@[simp] theorem plain_recorded (events : List Adapter.Event) (w : World σ) :
    (w.recorded events).plain = w := rfl

@[simp] theorem events_recorded (events : List Adapter.Event) (w : World σ) :
    (w.recorded events).events = events := rfl

end World

namespace Adapter

/-- The action as the answer to a call, which is noted. -/
def noting (call : Call) (answer : α → Answer) (a : Action σ α) : Action (Recorded σ) α := fun w =>
  match a w.plain with
  | (r, after) => (r, after.recorded (w.events ++ [⟨call, r.map answer⟩]))

/-- The adapter with its calls noted. -/
def recording (a : Adapter σ) : Adapter (Recorded σ) where
  dialect := a.dialect
  slowMillis := a.slowMillis
  connect settings := noting (.connect settings) (fun _ => .done) (a.connect settings)
  close := noting .close (fun _ => .done) a.close
  execute sql values := noting (.execute sql values) .cursor (a.execute sql values)
  run s := noting (.run s) .result (a.run s)
  stream s := noting (.stream s) .cursor (a.stream s)
  closeCursor cursor := noting (.closeCursor cursor) (fun _ => .done) (a.closeCursor cursor)
  begin := noting .begin (fun _ => .done) a.begin
  commit := noting .commit (fun _ => .done) a.commit
  rollback := noting .rollback (fun _ => .done) a.rollback

theorem noting_eq {call : Call} {answer : α → Answer} {a : Action σ α} {w : World (Recorded σ)}
    {r : Except Fault α} {after : World σ} (h : a w.plain = (r, after)) :
    noting call answer a w = (r, after.recorded (w.events ++ [⟨call, r.map answer⟩])) := by
  rw [noting, h]

end Adapter

/-- The session with the calls on its adapter noted. -/
def Session.recording (s : Session σ) : Session (Recorded σ) where
  adapter := s.adapter.recording
  strict := s.strict
  observer := s.observer

/-! ## Histories -/

namespace Adapter

/-- Make a call. -/
def answer (a : Adapter σ) : Call → Action σ Answer
  | .connect settings => (fun _ => .done) <$> a.connect settings
  | .close => (fun _ => .done) <$> a.close
  | .execute sql values => .cursor <$> a.execute sql values
  | .run s => .result <$> a.run s
  | .stream s => .cursor <$> a.stream s
  | .closeCursor cursor => (fun _ => .done) <$> a.closeCursor cursor
  | .begin => (fun _ => .done) <$> a.begin
  | .commit => (fun _ => .done) <$> a.commit
  | .rollback => (fun _ => .done) <$> a.rollback

/-- A call that is made in one state of the peer and leaves another. -/
def Answers (a : Adapter σ) (before : σ) (e : Event) (after : σ) : Prop :=
  ∃ w w', a.answer e.call w = (e.answer, w') ∧ w.peer = before ∧ w'.peer = after

/-- Calls that are made one after the other. -/
def History (a : Adapter σ) : σ → List Event → σ → Prop
  | before, [], after => before = after
  | before, e :: events, after =>
    ∃ between, a.Answers before e between ∧ a.History between events after

variable {a : Adapter σ} {before after : σ}

theorem history_append {first second : List Event} :
    a.History before (first ++ second) after ↔
      ∃ between, a.History before first between ∧ a.History between second after := by
  induction first generalizing before with
  | nil => exact ⟨fun h => ⟨before, rfl, h⟩, by rintro ⟨_, rfl, h⟩; exact h⟩
  | cons e rest ih =>
    constructor
    · rintro ⟨p, he, hrest⟩
      obtain ⟨q, hfirst, hsecond⟩ := ih.1 hrest
      exact ⟨q, ⟨p, he, hfirst⟩, hsecond⟩
    · rintro ⟨q, ⟨p, he, hfirst⟩, hsecond⟩
      exact ⟨p, he, ih.2 ⟨q, hfirst, hsecond⟩⟩

theorem Answers.run {s : Statement} {answer : Except Fault Answer}
    (h : a.Answers before ⟨.run s, answer⟩ after) :
    ∃ w r w', a.run s w = (r, w') ∧ w.peer = before ∧ w'.peer = after ∧
      answer = r.map .result := by
  obtain ⟨w, w', hrun, hbefore, hafter⟩ := h
  cases (Action.map_apply Answer.result (a.run s) w).symm.trans hrun
  exact ⟨w, _, _, rfl, hbefore, hafter, rfl⟩

/-- What lies between two worlds on the record. -/
def Extends (a : Adapter σ) (w w' : World (Recorded σ)) : Prop :=
  ∃ events, w'.events = w.events ++ events ∧ a.History w.plain.peer events w'.plain.peer

theorem Extends.of_eq {w w' : World (Recorded σ)} (h : w'.peer = w.peer) : a.Extends w w' :=
  ⟨[], (congrArg Recorded.events h).trans (List.append_nil _).symm,
    (congrArg Recorded.state h).symm⟩

theorem Extends.trans {w w₁ w' : World (Recorded σ)} (h : a.Extends w w₁)
    (hnext : a.Extends w₁ w') : a.Extends w w' := by
  obtain ⟨first, hfirst, hhistory⟩ := h
  obtain ⟨second, hsecond, hhistory'⟩ := hnext
  exact ⟨first ++ second, by rw [hsecond, hfirst, List.append_assoc],
    history_append.2 ⟨_, hhistory, hhistory'⟩⟩

end Adapter

/-! ## Recording changes nothing -/

/-- The recorded action does what the plain one does, and what it adds to the record is a
history. -/
def Shadows (a : Adapter σ) (recorded : Action (Recorded σ) α) (plain : Action σ α) : Prop :=
  ∀ w r w', recorded w = (r, w') → plain w.plain = (r, w'.plain) ∧ a.Extends w w'

section

variable {a : Adapter σ}

theorem Shadows.eq {b : Action (Recorded σ) α} {c : Action σ α} (h : Shadows a b c) (w : World σ) :
    c w = ((b (w.recorded [])).1, (b (w.recorded [])).2.plain) :=
  (h (w.recorded []) _ _ rfl).1

theorem Shadows.history {b : Action (Recorded σ) α} {c : Action σ α} (h : Shadows a b c)
    (w : World σ) : a.History w.peer (b (w.recorded [])).2.events (c w).2.peer := by
  obtain ⟨-, events, hevents, hhistory⟩ := h (w.recorded []) _ _ rfl
  rw [h.eq w, hevents]
  exact hhistory

theorem shadows_pure (x : α) : Shadows a (pure x) (pure x) := by
  rintro w _ _ ⟨⟩
  exact ⟨rfl, .of_eq rfl⟩

theorem shadows_throw (e : Fault) : Shadows (α := α) a (throw e) (throw e) := by
  rintro w _ _ ⟨⟩
  exact ⟨rfl, .of_eq rfl⟩

theorem shadows_ofExcept (r : Except Fault α) :
    Shadows a (Action.ofExcept r) (Action.ofExcept r) := by
  rintro w _ _ ⟨⟩
  exact ⟨rfl, .of_eq rfl⟩

theorem shadows_now : Shadows a Action.now Action.now := by
  rintro w _ _ ⟨⟩
  exact ⟨rfl, .of_eq rfl⟩

theorem shadows_log (e : Journal.Entry) : Shadows a (Action.log e) (Action.log e) := by
  rintro w _ _ ⟨⟩
  exact ⟨rfl, .of_eq rfl⟩

theorem shadows_report (r : Report) : Shadows a (Action.report r) (Action.report r) := by
  rintro w _ _ ⟨⟩
  exact ⟨rfl, .of_eq rfl⟩

theorem shadows_noting {call : Adapter.Call} {answer : α → Adapter.Answer} {plain : Action σ α}
    (h : a.answer call = answer <$> plain) :
    Shadows a (Adapter.noting call answer plain) plain := by
  intro w r w' hnoted
  rcases hplain : plain w.plain with ⟨r₁, w₁⟩
  cases (Adapter.noting_eq hplain).symm.trans hnoted
  refine ⟨rfl, [⟨call, r.map answer⟩], rfl, w₁.peer, ⟨w.plain, w₁, ?_, rfl, rfl⟩, rfl⟩
  rw [h, Action.map_apply, hplain]

theorem Shadows.bind {b : Action (Recorded σ) α} {c : Action σ α} {g : α → Action (Recorded σ) β}
    {f : α → Action σ β} (h : Shadows a b c) (hnext : ∀ x, Shadows a (g x) (f x)) :
    Shadows a (b >>= g) (c >>= f) := by
  intro w r w' hall
  rcases hb : b w with ⟨r₁, w₁⟩
  obtain ⟨hc, hextends⟩ := h _ _ _ hb
  cases r₁ with
  | error e =>
    cases (Action.bind_of_error hb).symm.trans hall
    exact ⟨Action.bind_of_error hc, hextends⟩
  | ok x =>
    obtain ⟨hf, hextends'⟩ := hnext x _ _ _ ((Action.bind_of_ok hb).symm.trans hall)
    exact ⟨(Action.bind_of_ok hc).trans hf, hextends.trans hextends'⟩

theorem Shadows.always {b : Action (Recorded σ) α} {c : Action σ α}
    {last : Action (Recorded σ) Unit} {last' : Action σ Unit} (h : Shadows a b c)
    (hlast : Shadows a last last') : Shadows a (Action.always b last) (Action.always c last') := by
  intro w r w' hall
  rcases hb : b w with ⟨r₁, w₁⟩
  rcases hl : last w₁ with ⟨r₂, w₂⟩
  obtain ⟨hc, hextends⟩ := h _ _ _ hb
  obtain ⟨hl', hextends'⟩ := hlast _ _ _ hl
  simp only [Action.always, hb, hl] at hall
  simp only [Action.always, hc, hl']
  cases r₂ <;> cases hall <;> exact ⟨rfl, hextends.trans hextends'⟩

theorem Shadows.onFault {b : Action (Recorded σ) α} {c : Action σ α}
    {g : Fault → Action (Recorded σ) Unit} {f : Fault → Action σ Unit} (h : Shadows a b c)
    (hhandle : ∀ e, Shadows a (g e) (f e)) :
    Shadows a (Action.onFault b g) (Action.onFault c f) := by
  intro w r w' hall
  rcases hb : b w with ⟨r₁, w₁⟩
  obtain ⟨hc, hextends⟩ := h _ _ _ hb
  cases r₁ with
  | ok x =>
    cases (Action.onFault_of_ok hb).symm.trans hall
    exact ⟨Action.onFault_of_ok hc, hextends⟩
  | error e =>
    rcases hg : g e w₁ with ⟨r₂, w₂⟩
    obtain ⟨hf, hextends'⟩ := hhandle e _ _ _ hg
    cases (Action.onFault_of_error hb hg).symm.trans hall
    exact ⟨Action.onFault_of_error hc hf, hextends.trans hextends'⟩

theorem Shadows.forM {g : α → Action (Recorded σ) Unit} {f : α → Action σ Unit}
    (h : ∀ x, Shadows a (g x) (f x)) (xs : List α) : Shadows a (xs.forM g) (xs.forM f) := by
  induction xs with
  | nil => exact shadows_pure ()
  | cons x xs ih => exact (h x).bind fun _ => ih

theorem Shadows.mapM {g : α → Action (Recorded σ) β} {f : α → Action σ β}
    (h : ∀ x, Shadows a (g x) (f x)) (xs : List α) : Shadows a (xs.mapM g) (xs.mapM f) := by
  induction xs with
  | nil => exact shadows_pure []
  | cons x xs ih =>
    rw [List.mapM_cons, List.mapM_cons]
    exact (h x).bind fun y => ih.bind fun ys => shadows_pure (y :: ys)

theorem shadows_watch (o : Observer) (statements : List Statement)
    {b : Action (Recorded σ) α} {c : Action σ α} (h : Shadows a b c) :
    Shadows a (o.watch statements b) (o.watch statements c) := by
  refine shadows_now.bind fun began => h.always (shadows_now.bind fun ended => ?_)
  refine Shadows.forM (fun s => ?_) statements
  cases o with
  | nobody => exact shadows_pure ()
  | hook => exact shadows_report _
  | journal => exact shadows_log _

end

theorem shadows_run (s : Session σ) (statement : Statement) :
    Shadows s.adapter (s.recording.run statement) (s.run statement) :=
  shadows_watch s.observer [statement] (shadows_noting rfl)

theorem shadows_batch (s : Session σ) (xs : List Executable) :
    Shadows s.adapter (s.recording.batch xs) (s.batch xs) := by
  refine (shadows_ofExcept _).bind fun statements => ?_
  cases statements with
  | nil => exact shadows_pure []
  | cons first rest =>
    refine shadows_watch _ _ ((shadows_noting rfl).bind fun _ => Shadows.bind ?_ fun results =>
      (shadows_noting rfl).bind fun _ => shadows_pure results)
    exact (Shadows.mapM (fun _ => shadows_noting rfl) _).onFault fun _ =>
      (shadows_log _).bind fun _ => shadows_noting rfl

theorem shadows_control (s : Session σ) (sql : String) :
    Shadows s.adapter (Transaction.control s.recording sql) (Transaction.control s sql) :=
  (shadows_run s _).bind fun _ => shadows_pure ()

theorem shadows_begin (s : Session σ) (t : Transaction) :
    Shadows s.adapter (Transaction.begin s.recording t) (Transaction.begin s t) := by
  unfold Transaction.begin
  split
  · exact shadows_throw _
  · exact (shadows_control s _).bind fun _ => shadows_pure _

theorem shadows_commit (s : Session σ) (t : Transaction) :
    Shadows s.adapter (Transaction.commit s.recording t) (Transaction.commit s t) := by
  unfold Transaction.commit
  split
  · exact (shadows_control s _).bind fun _ => shadows_pure _
  · exact shadows_throw _

theorem shadows_rollback (s : Session σ) (t : Transaction) :
    Shadows s.adapter (Transaction.rollback s.recording t) (Transaction.rollback s t) := by
  unfold Transaction.rollback
  split
  · exact (shadows_control s _).bind fun _ => shadows_pure _
  · exact shadows_throw _

theorem shadows_around (s : Session σ) {b : Action (Recorded σ) α} {c : Action σ α}
    (h : Shadows s.adapter b c) :
    Shadows s.adapter (Transaction.around s.recording b) (Transaction.around s c) := by
  refine (shadows_begin s {}).bind fun t => Shadows.bind ?_ fun x =>
    (shadows_commit s t).bind fun _ => shadows_pure x
  exact h.onFault fun e =>
    ((shadows_log _).bind fun _ => shadows_rollback s t).bind fun _ => shadows_pure ()

/-! ## What a statement adds to the record -/

/-- Telling of statements does not reach the peer. -/
theorem tellAll_peer (o : Observer) (elapsed : Binary64) (statements : List Statement)
    (w : World σ) :
    ∃ w', statements.forM (o.tell elapsed) w = (.ok (), w') ∧ w'.peer = w.peer := by
  induction statements generalizing w with
  | nil => exact ⟨w, rfl, rfl⟩
  | cons s rest ih =>
    have hfirst : ∃ w₁, o.tell elapsed s w = (.ok (), w₁) ∧ w₁.peer = w.peer := by
      cases o <;> exact ⟨_, rfl, rfl⟩
    obtain ⟨w₁, htell, hpeer⟩ := hfirst
    obtain ⟨w₂, hrest, hpeer'⟩ := ih w₁
    exact ⟨w₂, (Action.bind_of_ok htell).trans hrest, hpeer'.trans hpeer⟩

/-- A watched action ends as it does alone. -/
theorem watch_eq {o : Observer} {statements : List Statement} {a : Action σ α} {w w' : World σ}
    {r : Except Fault α} (h : o.watch statements a w = (r, w')) :
    ∃ w₁, a w = (r, w₁) ∧ w'.peer = w₁.peer := by
  rcases ha : a w with ⟨r₁, w₁⟩
  obtain ⟨w₂, htold, hpeer⟩ := tellAll_peer o (Journal.millis (w₁.clock - w.clock)) statements w₁
  have hlast : o.conclude w.clock statements w₁ = (.ok (), w₂) := htold
  have hwatch : o.watch statements a w = (r₁, w₂) := by
    show Action.always a (o.conclude w.clock statements) w = (r₁, w₂)
    rw [Action.always, ha]
    simp only [hlast]
  rw [hwatch] at h
  cases h
  exact ⟨w₁, rfl, hpeer⟩

/-- A statement adds its own call to the record. -/
theorem Session.run_recording {s : Session σ} {statement : Statement}
    {w w' : World (Recorded σ)} {r : Except Fault Result}
    (h : s.recording.run statement w = (r, w')) :
    w'.events = w.events ++ [⟨.run statement, r.map .result⟩] := by
  obtain ⟨w₂, hrun, hpeer⟩ := watch_eq h
  rcases ha : s.adapter.run statement w.plain with ⟨r₁, w₁⟩
  have hnoted : s.recording.adapter.run statement w
      = (r₁, w₁.recorded (w.events ++ [⟨.run statement, r₁.map .result⟩])) :=
    Adapter.noting_eq ha
  cases hnoted.symm.trans hrun
  exact congrArg Recorded.events hpeer

end Querywright
