/-
  The calls of an adapter that a driver fails, and what the adapter makes of them.

  * `Wire.met` reads off the calls that were made which of them failed, and which statements were
    executed.
  * `Ends`: an action stops at the first call that fails, with the fault of that call.
  * `Adapter.Sqlite.reworded`, `Adapter.Postgres.reworded`: the failures that an adapter rewords.
    With these, all that the adapters do on a connection ends so.
-/
import Querywright.Adapter.Postgres
import Querywright.Adapter.Sqlite
import Querywright.Proofs.Adapter.Line
import Querywright.Proofs.Fault.Own
import Querywright.Session.Stream

namespace Querywright

variable {α β γ : Type}

/-! ## Faults and failures -/

namespace Fault

/-- The fault is a failure of a driver, or was raised from one. -/
def Carries (f : Fault) (d : DriverFault) : Prop := f = .driver d ∨ f.reason? = some (.driver d)

/-- Neither a driver nor a transaction is behind the fault. -/
structure Local (f : Fault) : Prop where
  driver : ∀ d, ¬f.Carries d
  transaction : ∀ cause, f ≠ .transaction cause

/-- The fault tells of a failure: reworded, as a fault of the adapter raised from it, and otherwise
as it is. -/
def Tells (f : Fault) (reworded : Bool) (d : DriverFault) : Prop :=
  if reworded then f.ofAdapter = true ∧ f.reason? = some (.driver d) else f = .driver d

theorem local_of_isOwn {f : Fault} (h : f.isOwn = true) : f.Local := by
  constructor
  · rintro d (rfl | hreason)
    · cases h
    · cases f with
      | setting | connectionRefused | executionRefused | driver | transaction => cases h
      | _ => cases hreason
  · rintro cause rfl
    cases h

theorem Tells.carries {f : Fault} {reworded : Bool} {d : DriverFault} (h : f.Tells reworded d) :
    f.Carries d := by
  cases reworded with
  | false => exact .inl h
  | true => exact .inr h.2

end Fault

namespace Wire

/-- What a caller of the driver meets: a call that fails, or a statement that is executed with its
values. -/
inductive Met where
  | failed (call : Call) (cause : DriverFault)
  | executed (cursor : Cursor)

/-- The cursor of an executed statement. -/
def Reply.cursor (reply : Reply) (connection : Nat) : Cursor where
  connection
  columns := reply.columns
  rows := reply.rows
  ending := reply.ending
  rowCount := reply.rowCount
  lastRowId := reply.lastRowId

/-- What is met at a call that is answered so. A probe cannot fail. -/
def Met.of (reply : Reply) (e : Event) : List Met :=
  match e.call, reply.failure with
  | .probe, _ => []
  | call, some d => [.failed call d]
  | .execute _ (some _), none => [.executed (reply.cursor e.connection)]
  | _, none => []

/-- What is met at calls after a history. -/
def met (server : Server) : List Event → List Event → List Met
  | _, [] => []
  | history, e :: events => Met.of (server history e) e ++ met server (history ++ [e]) events

theorem Met.of_failed {reply : Reply} {c : Nat} {call : Call} {d : DriverFault}
    (h : reply.failure = some d) (hcall : call.asks = false) :
    Met.of reply ⟨c, call⟩ = [.failed call d] := by
  cases call with
  | probe => cases hcall
  | execute sql values => cases values <;> simp [Met.of, h]
  | _ => simp [Met.of, h]

theorem Met.of_executed {reply : Reply} {c : Nat} {sql : Value} {values : List Value}
    (h : reply.failure = none) :
    Met.of reply ⟨c, .execute sql (some values)⟩ = [.executed (reply.cursor c)] := by
  simp [Met.of, h]

/-- The call executes a statement with its values. -/
def Call.executes : Call → Bool
  | .execute _ (some _) => true
  | _ => false

theorem Met.of_answered {reply : Reply} {c : Nat} {call : Call} (h : reply.failure = none)
    (hcall : call.executes = false) : Met.of reply ⟨c, call⟩ = [] := by
  cases call with
  | execute sql values =>
    cases values with
    | none => simp [Met.of, h]
    | some values => cases hcall
  | _ => simp [Met.of, h]

theorem met_cons (server : Server) (history : List Event) (e : Event) (rest : List Event) :
    met server history (e :: rest) =
      Met.of (server history e) e ++ met server (history ++ [e]) rest := rfl

theorem met_append (server : Server) (history first second : List Event) :
    met server history (first ++ second)
      = met server history first ++ met server (history ++ first) second := by
  induction first generalizing history with
  | nil =>
    rw [List.append_nil]
    rfl
  | cons e rest ih =>
    rw [List.cons_append, met_cons, met_cons, ih, List.append_assoc, List.append_assoc,
      List.singleton_append]

theorem met_singleton (server : Server) (history : List Event) (e : Event) :
    met server history [e] = Met.of (server history e) e :=
  List.append_nil _

end Wire

open Wire (Met Server met)

/-! ## Actions that stop at a failing call -/

/-- How an action ends: with a value and what is met for it, with a fault of its own and nothing
met, or at a call that fails. -/
inductive EndsIn (reworded : Wire.Call → DriverFault → Bool) (post : α → List Met) :
    Except Fault α → List Met → Prop where
  | done (x : α) : EndsIn reworded post (.ok x) (post x)
  | own {f : Fault} (h : f.Local) : EndsIn reworded post (.error f) []
  | failed {call : Wire.Call} {d : DriverFault} {f : Fault} (h : f.Tells (reworded call d) d) :
    EndsIn reworded post (.error f) [.failed call d]

/-- The action stops at the first call that fails. -/
def Ends (server : Server) (reworded : Wire.Call → DriverFault → Bool) (post : α → List Met)
    (a : Action Wire α) : Prop :=
  ∀ w r w', a w = (r, w') → ∃ events, w'.peer.history = w.peer.history ++ events ∧
    EndsIn reworded post r (met server w.peer.history events)

/-- Such an action that executes no statement with values. -/
abbrev Plainly (server : Server) (reworded : Wire.Call → DriverFault → Bool)
    (a : Action Wire α) : Prop :=
  Ends server reworded (fun _ => []) a

section

variable {server : Server} {reworded : Wire.Call → DriverFault → Bool} {post : α → List Met}
  {a : Action Wire α}

theorem ends_still {r : Except Fault α} {w w' : World Wire}
    (hhistory : w'.peer.history = w.peer.history) (h : EndsIn reworded post r []) :
    ∃ events, w'.peer.history = w.peer.history ++ events ∧
      EndsIn reworded post r (met server w.peer.history events) :=
  ⟨[], by rw [hhistory, List.append_nil], h⟩

theorem plainly_pure (x : α) : Plainly server reworded (pure x) := by
  rintro w _ _ ⟨⟩
  exact ends_still rfl (.done x)

theorem plainly_throw {f : Fault} (h : f.Local) :
    Plainly (α := α) server reworded (throw f) := by
  rintro w _ _ ⟨⟩
  exact ends_still rfl (.own h)

theorem plainly_ofExcept {r : Except Fault α} (h : Owns r) :
    Plainly server reworded (Action.ofExcept r) := by
  rintro w _ _ ⟨⟩
  cases r with
  | error f => exact ends_still rfl (.own (Fault.local_of_isOwn (h f rfl)))
  | ok x => exact ends_still rfl (.done x)

theorem plainly_now : Plainly server reworded Action.now := by
  rintro w _ _ ⟨⟩
  exact ends_still rfl (.done _)

theorem plainly_peer : Plainly server reworded Action.peer := by
  rintro w _ _ ⟨⟩
  exact ends_still rfl (.done _)

theorem plainly_log (e : Journal.Entry) : Plainly server reworded (Action.log e) := by
  rintro w _ _ ⟨⟩
  exact ends_still rfl (.done _)

theorem plainly_setPeer {f : Wire → Wire} (h : ∀ wire, (f wire).history = wire.history) :
    Plainly server reworded (Action.setPeer f) := by
  rintro w _ _ ⟨⟩
  exact ends_still (h w.peer) (.done _)

/-- An action with another one after it stops before that one, or hands it a value. -/
theorem Ends.bind_cases {before : γ → List Met} {b : Action Wire γ} {f : γ → Action Wire α}
    (h : Ends server reworded before b) {w w' : World Wire} {r : Except Fault α}
    (hall : (b >>= f) w = (r, w')) :
    (∃ events, w'.peer.history = w.peer.history ++ events ∧
      ∀ post, EndsIn reworded post r (met server w.peer.history events)) ∨
    ∃ x w₁ events, w₁.peer.history = w.peer.history ++ events ∧
      met server w.peer.history events = before x ∧ f x w₁ = (r, w') := by
  rcases hb : b w with ⟨r₁, w₁⟩
  obtain ⟨events, hevents, hends⟩ := h w _ _ hb
  generalize hm : met server w.peer.history events = m at hends
  cases hends with
  | done x => exact .inr ⟨x, w₁, events, hevents, hm, (Action.bind_of_ok hb).symm.trans hall⟩
  | own hlocal =>
    cases (Action.bind_of_error hb).symm.trans hall
    exact .inl ⟨events, hevents, fun _ => hm ▸ .own hlocal⟩
  | failed htells =>
    cases (Action.bind_of_error hb).symm.trans hall
    exact .inl ⟨events, hevents, fun _ => hm ▸ .failed htells⟩

/-- What comes after a plain action. -/
theorem Ends.bind {b : Action Wire γ} {f : γ → Action Wire α} (h : Plainly server reworded b)
    (hnext : ∀ x, Ends server reworded post (f x)) : Ends server reworded post (b >>= f) := by
  intro w r w' hall
  obtain ⟨events, hevents, hends⟩ | ⟨x, w₁, first, hfirst, hm, hrest⟩ := h.bind_cases hall
  · exact ⟨events, hevents, hends post⟩
  · obtain ⟨second, hsecond, hends⟩ := hnext x _ _ _ hrest
    refine ⟨first ++ second, by rw [hsecond, hfirst, List.append_assoc], ?_⟩
    rwa [Wire.met_append, hm, List.nil_append, ← hfirst]

/-- A last step that changes the value alone. -/
theorem Ends.map {post' : β → List Met} (h : Ends server reworded post a) (f : α → β)
    (hpost : ∀ x, post' (f x) = post x) :
    Ends server reworded post' (a >>= fun x => pure (f x)) := by
  intro w r w' hall
  rcases ha : a w with ⟨r₁, w₁⟩
  obtain ⟨events, hevents, hends⟩ := h w _ _ ha
  cases (Action.bind_pure_of_eq ha).symm.trans hall
  refine ⟨events, hevents, ?_⟩
  generalize met server w.peer.history events = m at hends
  cases hends with
  | done x => exact hpost x ▸ .done (f x)
  | own hlocal => exact .own hlocal
  | failed htells => exact .failed htells

theorem Ends.timed {speaker name : String} {slow : Int} {sql : Value} {values : List Value}
    (h : Ends server reworded post a) :
    Ends server reworded post (Action.timed speaker name slow sql values a) := by
  refine plainly_now.bind fun start => ?_
  intro w r w' hall
  rcases ha : a w with ⟨r₁, w₁⟩
  obtain ⟨events, hevents, hends⟩ := h w _ _ ha
  simp only [Action.always, ha] at hall
  cases hall
  exact ⟨events, hevents, hends⟩

/-! ## Calls -/

/-- A call that is not guarded. -/
theorem plainly_send {c : Nat} {call : Wire.Call} (hasks : call.asks = false)
    (hexecutes : call.executes = false) (hbare : ∀ d, reworded call d = false) :
    Plainly server reworded (Wire.send server c call) := by
  intro w r w' h
  cases (Wire.send_apply server c call w).symm.trans h
  refine ⟨[⟨c, call⟩], rfl, ?_⟩
  rw [Wire.met_singleton]
  cases hfailure : (server w.peer.history ⟨c, call⟩).failure with
  | none =>
    rw [Met.of_answered hfailure hexecutes, Wire.Reply.outcome_of_answered hfailure]
    exact .done _
  | some d =>
    rw [Met.of_failed hfailure hasks, Wire.Reply.outcome_of_failed hfailure]
    refine .failed ?_
    rw [hbare d]
    exact rfl

/-- A call whose failure is reworded. -/
theorem Ends.guarded_send {c : Nat} {call : Wire.Call} {g : Fault → Fault} {f : Wire.Reply → α}
    (hasks : call.asks = false) (hg : ∀ d, (g (.driver d)).Tells (reworded call d) d)
    (hpost : ∀ reply : Wire.Reply, reply.failure = none →
      Met.of reply ⟨c, call⟩ = post (f reply)) :
    Ends server reworded post
      (Action.mapFault g (Wire.send server c call >>= fun reply => pure (f reply))) := by
  intro w r w' h
  rw [Action.mapFault_apply, Action.bind_pure_of_eq (Wire.send_apply server c call w)] at h
  cases h
  refine ⟨[⟨c, call⟩], rfl, ?_⟩
  rw [Wire.met_singleton]
  cases hfailure : (server w.peer.history ⟨c, call⟩).failure with
  | none =>
    rw [hpost _ hfailure, Wire.Reply.outcome_of_answered hfailure]
    exact .done _
  | some d =>
    rw [Met.of_failed hfailure hasks, Wire.Reply.outcome_of_failed hfailure]
    exact .failed (hg d)

theorem ends_query {c : Nat} {sql : Value} {values : List Value} {g : Fault → Fault}
    (hg : ∀ d, (g (.driver d)).Tells (reworded (.execute sql (some values)) d) d) :
    Ends server reworded (fun cursor => [.executed cursor])
      (Action.mapFault g (Wire.query server c sql (some values))) :=
  Ends.guarded_send rfl hg fun _ h => Met.of_executed h

theorem plainly_connect {target options : Value} {g : Fault → Fault}
    (hg : ∀ d, (g (.driver d)).Tells (reworded (.connect target options) d) d) :
    Plainly server reworded (Action.mapFault g (Wire.connect server target options)) := by
  have hcounted : Plainly server reworded
      (Action.mapFault g (Action.setPeer fun w => { w with opened := w.opened + 1 })) :=
    plainly_setPeer (f := fun w => { w with opened := w.opened + 1 }) fun _ => rfl
  rw [Wire.connect, Action.mapFault_bind]
  refine plainly_peer.bind fun wire => ?_
  rw [Action.mapFault_bind]
  exact hcounted.bind fun _ => Ends.guarded_send rfl hg fun _ h => Met.of_answered h rfl

theorem plainly_isDropped {c : Nat} : Plainly server reworded (Wire.isDropped server c) := by
  rintro w _ _ ⟨⟩
  exact ⟨[⟨c, .probe⟩], rfl, .done _⟩

end

/-! ## The adapters -/

/-- A fault of a value, reworded or not, is not one of a driver. -/
theorem plainly_reworded {server : Server} {reworded : Wire.Call → DriverFault → Bool}
    {r : Except Fault α} (h : Owns r) (label : String) :
    Plainly server reworded (Action.mapFault (.connectionRefused label) (Action.ofExcept r)) := by
  intro w r' w' hall
  rw [Action.mapFault_apply] at hall
  cases hall
  cases r with
  | ok x => exact ends_still rfl (.done x)
  | error f =>
    refine ends_still rfl (.own ⟨?_, nofun⟩)
    rintro d (hdriver | hreason)
    · cases hdriver
    · exact (Fault.local_of_isOwn (h f rfl)).driver d (.inl (Option.some.inj hreason))

namespace Adapter.Sqlite

/-- The failures that the adapter rewords: documented ones, of statements with their values. -/
def reworded : Wire.Call → DriverFault → Bool
  | .execute _ (some _), .operational _ => true
  | _, _ => false

variable {server : Server} {slow : Int}

theorem plainly_connection : Plainly server reworded connection := by
  refine plainly_peer.bind fun wire => ?_
  split
  · exact plainly_pure _
  · exact plainly_throw (Fault.local_of_isOwn rfl)

theorem ends_execute (sql : Value) (values : List Value) :
    Ends server reworded (fun cursor => [.executed cursor]) (execute server slow sql values) := by
  refine plainly_connection.bind fun c => (plainly_send rfl rfl fun _ => rfl).bind fun _ => ?_
  refine (ends_query fun d => ?_).timed
  cases d with
  | operational message => exact ⟨rfl, rfl⟩
  | general message => exact rfl

theorem ends_start (s : Statement) :
    Ends server reworded (fun p => [.executed p.2]) (start server slow s) :=
  (plainly_ofExcept (Dialect.sqlite.owns_translate s)).bind fun prepared =>
    (ends_execute _ _).map (fun cursor => (prepared.sql, cursor)) fun _ => rfl

theorem plainly_onConnection {call : Wire.Call} (hasks : call.asks = false)
    (hexecutes : call.executes = false) (hbare : ∀ d, reworded call d = false) :
    Plainly server reworded (onConnection server call) :=
  plainly_connection.bind fun _ =>
    (plainly_send hasks hexecutes hbare).bind fun _ => plainly_pure _

end Adapter.Sqlite

namespace Adapter.Postgres

/-- The failures that the adapter rewords: those of statements with their values, and of opening a
connection again. -/
def reworded : Wire.Call → DriverFault → Bool
  | .execute _ (some _), _ => true
  | .connect _ _, _ => true
  | _, _ => false

variable {server : Server} {installed : Bool} {slow : Int}

theorem local_driverMissing : (Fault.setting .driverMissing none).Local where
  driver := by
    rintro d (hdriver | hreason)
    · cases hdriver
    · cases hreason
  transaction := nofun

theorem plainly_connect (s : Settings) :
    Plainly server reworded (connect server installed s) := by
  cases installed with
  | false => exact plainly_throw local_driverMissing
  | true =>
    refine (plainly_ofExcept s.owns_label).bind fun label => (plainly_log _).bind fun _ => ?_
    refine Ends.bind ?_ fun c => (plainly_send rfl rfl fun _ => rfl).bind fun _ =>
      plainly_setPeer fun _ => rfl
    rw [Action.mapFault_bind]
    refine (plainly_reworded s.owns_driverOptions _).bind fun options => ?_
    rw [Action.mapFault_bind]
    refine (plainly_reworded (Value.owns_texts _) _).bind fun _ => ?_
    exact Querywright.plainly_connect fun d => ⟨rfl, rfl⟩

theorem plainly_held : Plainly server reworded held := by
  refine plainly_peer.bind fun wire => ?_
  split
  · exact plainly_pure _
  · exact plainly_throw (Fault.local_of_isOwn rfl)

theorem plainly_connection : Plainly server reworded (connection server installed) := by
  refine plainly_held.bind fun now => plainly_isDropped.bind fun dropped => ?_
  split
  · exact (plainly_log _).bind fun _ => (plainly_connect _).bind fun _ => plainly_held
  · exact plainly_pure _

theorem ends_execute (sql : Value) (values : List Value) :
    Ends server reworded (fun cursor => [.executed cursor])
      (execute server installed slow sql values) := by
  have hmarkers : Owns (markersOf sql) := by
    unfold markersOf
    split
    · exact owns_ok _
    · exact owns_error rfl
  have hsent : Ends server reworded (fun cursor => [.executed cursor]) (do
      let c := (← connection server installed).connection
      let _ ← Wire.send server c .openCursor
      Action.timed speaker "postgres.execute" slow sql (Secret.redactAll values)
        (Action.mapFault refused (Wire.query server c sql (some values)))) := by
    refine plainly_connection.bind fun now => (plainly_send rfl rfl fun _ => rfl).bind fun _ => ?_
    refine (ends_query fun d => ?_).timed
    exact ⟨rfl, rfl⟩
  refine (plainly_ofExcept hmarkers).bind fun markers => ?_
  dsimp only
  split
  · have hmismatch : (Fault.markerMismatch markers values.length).Local :=
      Fault.local_of_isOwn rfl
    exact (plainly_throw hmismatch).bind fun _ => hsent
  · exact hsent

theorem ends_start (s : Statement) :
    Ends server reworded (fun p => [.executed p.2]) (start server installed slow s) :=
  (plainly_ofExcept (Dialect.postgres.owns_translate s)).bind fun prepared =>
    (ends_execute _ _).map (fun cursor => (prepared.sql, cursor)) fun _ => rfl

theorem plainly_begin : Plainly server reworded (begin server installed) := by
  refine plainly_connection.bind fun now => ?_
  split
  · refine (plainly_send rfl rfl fun _ => rfl).bind fun _ => ?_
    exact ((plainly_send rfl rfl fun _ => rfl).bind fun _ => plainly_pure _).bind fun _ =>
      plainly_pure _
  · exact plainly_pure _

theorem plainly_onConnection {call : Wire.Call} (hasks : call.asks = false)
    (hexecutes : call.executes = false) (hbare : ∀ d, reworded call d = false) :
    Plainly server reworded (onConnection server installed call) :=
  plainly_connection.bind fun _ =>
    (plainly_send hasks hexecutes hbare).bind fun _ => plainly_pure _

end Adapter.Postgres
end Querywright
