/-
  Batches over connections that the server drops. The adapter asks before every call whether its
  connection was dropped, and replaces it without a word, also inside a transaction.

  * `Wire.Follows`: the calls between two states of a wire follow the line of connections.
  * `Stays`: an action that makes all its calls on one connection. `Travels`: one whose calls follow
    the line.
  * `batch_on_one_connection_iff`: a batch that returns was sent on one connection exactly when no
    probe after its first statement found the connection dropped.
-/
import Querywright.Adapter.Postgres
import Querywright.Proofs.Adapter.Line
import Querywright.Proofs.Outcome
import Querywright.Proofs.Session.Recording

namespace Querywright

open Wire (Held Line OnLine Server lost)

variable {α β : Type} {server : Server} {installed : Bool}

/-- The wire after more calls. -/
def Wire.called (wire : Wire) (events : List Wire.Event) : Wire :=
  { wire with history := wire.history ++ events }

@[simp] theorem Wire.history_called (wire : Wire) (events : List Wire.Event) :
    (wire.called events).history = wire.history ++ events := rfl

@[simp] theorem Wire.opened_called (wire : Wire) (events : List Wire.Event) :
    (wire.called events).opened = wire.opened := rfl

@[simp] theorem Wire.held_called (wire : Wire) (events : List Wire.Event) :
    (wire.called events).held = wire.held := rfl

theorem Wire.called_called (wire : Wire) (first second : List Wire.Event) :
    (wire.called first).called second = wire.called (first ++ second) := by
  rw [called, history_called, List.append_assoc]
  rfl

/-- The calls between two states of a wire follow the line of connections, from the one that was
held to the one that is held. -/
structure Wire.Follows (server : Server) (wire : Wire) (held : Held) (events : List Wire.Event)
    (wire' : Wire) (held' : Held) : Prop where
  history : wire'.history = wire.history ++ events
  holds : wire'.held = some held'
  line : OnLine server wire.history ⟨held.connection, wire.opened⟩ events
    ⟨held'.connection, wire'.opened⟩

namespace Wire.Follows

variable {wire wire₁ wire' : Wire} {held held₁ held' : Held} {first second : List Wire.Event}

theorem trans (h : Follows server wire held first wire₁ held₁)
    (hnext : Follows server wire₁ held₁ second wire' held') :
    Follows server wire held (first ++ second) wire' held' where
  history := by rw [hnext.history, h.history, List.append_assoc]
  holds := hnext.holds
  line := by
    have hline := hnext.line
    rw [h.history] at hline
    exact Wire.onLine_append.2 ⟨_, h.line, hline⟩

/-- Calls on the held connection that do not ask about it. -/
theorem of_called (hheld : wire.held = some held)
    (h : ∀ e ∈ first, e.connection = held.connection ∧ e.call.asks = false) :
    Follows server wire held first (wire.called first) held where
  history := rfl
  holds := hheld
  line := .of_forall h

end Wire.Follows

namespace Adapter.Postgres

/-! ## Calls on one connection -/

/-- All calls of the action are made on a connection, and none of them asks about it. -/
def Stays (c : Nat) (a : Action Wire α) : Prop :=
  ∀ w r w', a w = (r, w') → ∃ events : List Wire.Event, w'.peer = w.peer.called events ∧
    ∀ e ∈ events, e.connection = c ∧ e.call.asks = false

section

variable {c : Nat}

theorem Stays.of_peer {a : Action Wire α} (h : ∀ w, (a w).2.peer = w.peer) : Stays c a := by
  intro w r w' ha
  refine ⟨[], ?_, List.forall_mem_nil _⟩
  rw [Wire.called, List.append_nil, ← h w, ha]

theorem stays_pure (x : α) : Stays c (pure x) := .of_peer fun _ => rfl

theorem stays_ofExcept (r : Except Fault α) : Stays c (Action.ofExcept r) := .of_peer fun _ => rfl

theorem stays_now : Stays c Action.now := .of_peer fun _ => rfl

theorem stays_log (e : Journal.Entry) : Stays c (Action.log e) := .of_peer fun _ => rfl

theorem Stays.bind {a : Action Wire α} {f : α → Action Wire β} (h : Stays c a)
    (hnext : ∀ x, Stays c (f x)) : Stays c (a >>= f) := by
  intro w r w' hall
  rcases ha : a w with ⟨r₁, w₁⟩
  obtain ⟨first, hfirst, hon⟩ := h w _ _ ha
  cases r₁ with
  | error e =>
    cases (Action.bind_of_error ha).symm.trans hall
    exact ⟨first, hfirst, hon⟩
  | ok x =>
    obtain ⟨second, hsecond, hon'⟩ := hnext x _ _ _ ((Action.bind_of_ok ha).symm.trans hall)
    refine ⟨first ++ second, ?_, List.forall_mem_append.2 ⟨hon, hon'⟩⟩
    rw [hsecond, hfirst, Wire.called_called]

theorem Stays.always {a : Action Wire α} {last : Action Wire Unit} (h : Stays c a)
    (hlast : Stays c last) : Stays c (Action.always a last) := by
  intro w r w' hall
  rcases ha : a w with ⟨r₁, w₁⟩
  rcases hl : last w₁ with ⟨r₂, w₂⟩
  obtain ⟨first, hfirst, hon⟩ := h w _ _ ha
  obtain ⟨second, hsecond, hon'⟩ := hlast w₁ _ _ hl
  have hw : w₂ = w' := by
    simp only [Action.always, ha, hl] at hall
    cases r₂ <;> exact congrArg Prod.snd hall
  refine ⟨first ++ second, ?_, List.forall_mem_append.2 ⟨hon, hon'⟩⟩
  rw [← hw, hsecond, hfirst, Wire.called_called]

theorem Stays.mapFault {a : Action Wire α} (g : Fault → Fault) (h : Stays c a) :
    Stays c (Action.mapFault g a) := by
  intro w r w' hall
  rw [Action.mapFault_apply] at hall
  cases hall
  exact h w _ _ rfl

theorem Stays.timed {a : Action Wire α} (name : String) (slow : Int) (sql : Value)
    (values : List Value) (h : Stays c a) :
    Stays c (Action.timed speaker name slow sql values a) :=
  stays_now.bind fun _ => h.always (stays_now.bind fun _ => stays_log _)

theorem send_peer (server : Server) (c : Nat) (call : Wire.Call) (w : World Wire) :
    (Wire.send server c call w).2.peer = w.peer.called [⟨c, call⟩] := by
  rw [Wire.send_apply]
  rfl

theorem send_eq {c : Nat} {call : Wire.Call} {w w' : World Wire} {r : Except Fault Wire.Reply}
    (h : Wire.send server c call w = (r, w')) : w'.peer = w.peer.called [⟨c, call⟩] := by
  rw [← send_peer server c call w, h]

theorem stays_send {call : Wire.Call} (h : call.asks = false) :
    Stays c (Wire.send server c call) := by
  intro w r w' hsend
  exact ⟨[⟨c, call⟩], send_eq hsend, List.forall_mem_singleton.2 ⟨rfl, h⟩⟩

theorem stays_query (sql : Value) (values : Option (List Value)) :
    Stays c (Wire.query server c sql values) :=
  (stays_send rfl).bind fun _ => stays_pure _

end

/-! ## The line of connections -/

/-- When the action succeeds, its calls follow the line of connections. -/
def Travels (server : Server) (a : Action Wire α) : Prop :=
  ∀ w x w' held, a w = (.ok x, w') → w.peer.held = some held →
    ∃ events held', w.peer.Follows server held events w'.peer held'

theorem Travels.of_stays {a : Action Wire α} (h : ∀ c, Stays c a) : Travels server a := by
  intro w x w' held ha hheld
  obtain ⟨events, hpeer, hon⟩ := h held.connection w _ _ ha
  exact ⟨events, held, hpeer ▸ .of_called hheld hon⟩

theorem Travels.bind {a : Action Wire α} {f : α → Action Wire β} (h : Travels server a)
    (hnext : ∀ x, Travels server (f x)) : Travels server (a >>= f) := by
  intro w y w' held hall hheld
  obtain ⟨x, w₁, ha, hf⟩ := Action.bind_eq_ok.1 hall
  obtain ⟨first, held₁, hfirst⟩ := h w x w₁ held ha hheld
  obtain ⟨second, held', hsecond⟩ := hnext x w₁ y w' held₁ hf hfirst.holds
  exact ⟨first ++ second, held', hfirst.trans hsecond⟩

theorem Travels.mapM {f : α → Action Wire β} (h : ∀ x, Travels server (f x)) (xs : List α) :
    Travels server (xs.mapM f) := by
  induction xs with
  | nil => exact .of_stays fun _ => stays_pure []
  | cons x xs ih =>
    rw [List.mapM_cons]
    exact (h x).bind fun y => ih.bind fun ys => .of_stays fun _ => stays_pure _

theorem wireConnect_ok {target options : Value} {c : Nat} {w w' : World Wire}
    (h : Wire.connect server target options w = (.ok c, w')) :
    c = w.peer.opened ∧ w'.peer = { w.peer with opened := w.peer.opened + 1 }.called
      [⟨w.peer.opened, .connect target options⟩] := by
  let asked : World Wire := { w with peer := { w.peer with opened := w.peer.opened + 1 } }
  have hsent : (do
      let _ ← Wire.send server w.peer.opened (.connect target options)
      return w.peer.opened) asked = (.ok c, w') := h
  obtain ⟨reply, w₁, hsend, hlast⟩ := Action.bind_eq_ok.1 hsent
  cases hlast
  exact ⟨rfl, send_eq hsend⟩

/-- A new connection is the next one, and it is held from then on. -/
theorem connect_ok {s : Settings} {w w' : World Wire}
    (h : connect server installed s w = (.ok (), w')) :
    ∃ target options autocommit, w'.peer.history = w.peer.history ++
        [⟨w.peer.opened, .connect target options⟩, ⟨w.peer.opened, .setAutocommit autocommit⟩] ∧
      w'.peer.opened = w.peer.opened + 1 ∧ w'.peer.held = some ⟨w.peer.opened, s⟩ := by
  cases installed with
  | false => cases h
  | true =>
    obtain ⟨label, w₁, hlabel, h⟩ := Action.bind_eq_ok.1 h
    obtain ⟨_, w₂, hlog, h⟩ := Action.bind_eq_ok.1 h
    obtain ⟨c, w₃, hopen, h⟩ := Action.bind_eq_ok.1 h
    obtain ⟨reply, w₄, hset, h⟩ := Action.bind_eq_ok.1 h
    obtain ⟨-, rfl⟩ := Prod.mk.inj hlabel
    obtain ⟨-, rfl⟩ := Prod.mk.inj hlog
    rw [Action.mapFault_eq_ok] at hopen
    obtain ⟨options, w₅, hoptions, hopen⟩ := Action.bind_eq_ok.1 hopen
    obtain ⟨keys, w₆, hkeys, hopen⟩ := Action.bind_eq_ok.1 hopen
    obtain ⟨-, rfl⟩ := Prod.mk.inj hoptions
    obtain ⟨-, rfl⟩ := Prod.mk.inj hkeys
    obtain ⟨rfl, hpeer⟩ := wireConnect_ok hopen
    obtain ⟨-, rfl⟩ := Prod.mk.inj h
    have hwire := send_eq hset
    rw [hpeer, Wire.called_called] at hwire
    exact ⟨s.url, .map options, s.autocommit.truth, congrArg Wire.history hwire,
      congrArg Wire.opened hwire, rfl⟩

theorem held_ok {w : World Wire} {held : Held} (h : w.peer.held = some held) :
    Postgres.held w = (.ok held, w) := by
  rw [Postgres.held, Action.bind_of_ok (Action.peer_apply w), h]
  rfl

/-- The connection that is used is the one that is current then. -/
theorem connection_ok {w w' : World Wire} {held held' : Held}
    (h : connection server installed w = (.ok held', w')) (hheld : w.peer.held = some held) :
    ∃ events, w.peer.Follows server held events w'.peer held' := by
  have hrest := (Action.bind_of_ok (held_ok hheld)).symm.trans h
  have hasked : Wire.isDropped server held.connection w
      = (.ok (server w.peer.history ⟨held.connection, .probe⟩).dropped,
        { w with peer := w.peer.called [⟨held.connection, .probe⟩] }) := rfl
  have hlast := (Action.bind_of_ok hasked).symm.trans hrest
  have hafter (line : Line) : line.after server w.peer.history ⟨held.connection, .probe⟩
      = if (server w.peer.history ⟨held.connection, .probe⟩).dropped then
          ⟨line.opened, line.opened + 1⟩
        else line := rfl
  -- The line moves by the answer to the probe alone, and so does the adapter.
  cases hdropped : (server w.peer.history ⟨held.connection, .probe⟩).dropped with
  | false =>
    rw [hdropped] at hlast
    cases hlast
    refine ⟨[⟨held.connection, .probe⟩], rfl, hheld, rfl, ?_⟩
    rw [hafter, hdropped]
    rfl
  | true =>
    rw [hdropped] at hlast
    obtain ⟨_, w₁, hlog, hopening⟩ := Action.bind_eq_ok.1 hlast
    obtain ⟨_, w₂, hconnect, hholding⟩ := Action.bind_eq_ok.1 hopening
    obtain ⟨-, rfl⟩ := Prod.mk.inj hlog
    obtain ⟨target, options, autocommit, hhistory, hopened, hheld'⟩ := connect_ok hconnect
    cases (held_ok hheld').symm.trans hholding
    refine ⟨[⟨held.connection, .probe⟩, ⟨w.peer.opened, .connect target options⟩,
      ⟨w.peer.opened, .setAutocommit autocommit⟩], ?_, hheld', rfl, ?_⟩
    · rw [hhistory]
      exact List.append_assoc ..
    · rw [hafter, hdropped, if_pos rfl, hopened]
      exact .of_forall (by simp [Wire.Call.asks])

theorem travels_connection {f : Held → Action Wire β}
    (h : ∀ held : Held, Stays held.connection (f held)) :
    Travels server (connection server installed >>= f) := by
  intro w y w' held hall hheld
  obtain ⟨held₁, w₁, hconnection, hf⟩ := Action.bind_eq_ok.1 hall
  obtain ⟨first, hfirst⟩ := connection_ok hconnection hheld
  obtain ⟨second, hpeer, hon⟩ := h held₁ w₁ _ _ hf
  exact ⟨first ++ second, held₁, hfirst.trans (hpeer ▸ .of_called hfirst.holds hon)⟩

theorem travels_begin : Travels server (begin server installed) := by
  refine travels_connection fun held => ?_
  split
  · exact (stays_send rfl).bind fun _ => (stays_query _ _).bind fun _ => stays_pure _
  · exact stays_pure _

theorem travels_execute (slow : Int) (sql : Value) (values : List Value) :
    Travels server (execute server installed slow sql values) := by
  refine Travels.bind (.of_stays fun _ => stays_ofExcept _) fun markers => ?_
  dsimp only
  split
  · exact .of_stays fun _ => .of_peer fun _ => rfl
  · exact travels_connection fun _ => (stays_send rfl).bind fun _ =>
      Stays.timed _ _ _ _ ((stays_query _ _).mapFault _)

theorem travels_run (slow : Int) (s : Statement) :
    Travels server (run server installed slow s) := by
  have hstart : Travels server (start server installed slow s) :=
    Travels.bind (.of_stays fun _ => stays_ofExcept _) fun _ =>
      (travels_execute slow _ _).bind fun _ => .of_stays fun _ => stays_pure _
  refine Travels.bind (.of_stays fun _ => stays_now) fun _ => hstart.bind fun _ => ?_
  -- What follows only reads what was fetched, and makes no call.
  exact .of_stays fun _ => (stays_ofExcept _).bind fun _ => (stays_ofExcept _).bind fun _ =>
    stays_now.bind fun _ => stays_pure _

/-- A commit is made on the connection that is held at its end. -/
theorem commit_ok {w w' : World Wire} {held : Held}
    (h : onConnection server installed .commit w = (.ok (), w')) (hheld : w.peer.held = some held) :
    ∃ events held', w.peer.Follows server held (events ++ [⟨held'.connection, .commit⟩])
      w'.peer held' := by
  obtain ⟨held', w₁, hconnection, hsending⟩ := Action.bind_eq_ok.1 h
  obtain ⟨reply, w₂, hsend, hlast⟩ := Action.bind_eq_ok.1 hsending
  obtain ⟨-, rfl⟩ := Prod.mk.inj hlast
  obtain ⟨events, hevents⟩ := connection_ok hconnection hheld
  refine ⟨events, held', hevents.trans ?_⟩
  rw [send_eq hsend]
  exact .of_called hevents.holds (List.forall_mem_singleton.2 ⟨rfl, rfl⟩)

end Adapter.Postgres

/-! ## Batches -/

open Adapter.Postgres in
/-- The calls of a batch that returns follow the line, and the last of them is the commit. -/
theorem batch_follows {s : Session Wire} {slow : Int}
    (hs : s.adapter = Adapter.postgres server installed slow) {xs : List Executable}
    {w w' : World Wire} {held : Held} {results : List Result} (hxs : xs ≠ [])
    (hheld : w.peer.held = some held) (h : s.batch xs w = (.ok results, w')) :
    ∃ events held', w.peer.Follows server held (events ++ [⟨held'.connection, .commit⟩])
      w'.peer held' := by
  obtain ⟨statements, w₁, hread, hbatch⟩ := Action.bind_eq_ok.1 h
  obtain ⟨hstatements, rfl⟩ := Prod.mk.inj hread
  have hlength : statements.length = xs.length := length_of_mapM_eq_ok hstatements
  cases statements with
  | nil => exact absurd (List.length_eq_zero_iff.1 hlength.symm) hxs
  | cons first rest =>
    obtain ⟨w₂, hbody, hpeer⟩ := watch_eq hbatch
    obtain ⟨_, w₃, hbegin, hrunning⟩ := Action.bind_eq_ok.1 hbody
    obtain ⟨ran, w₄, hran, hending⟩ := Action.bind_eq_ok.1 hrunning
    obtain ⟨_, w₅, hcommit, hlast⟩ := Action.bind_eq_ok.1 hending
    obtain ⟨-, rfl⟩ := Prod.mk.inj hlast
    rw [Action.onFault_eq_ok] at hran
    rw [hs] at hbegin hran hcommit
    obtain ⟨begun, held₁, hbegun⟩ := travels_begin w _ _ held hbegin hheld
    obtain ⟨worked, held₂, hworked⟩ :=
      Travels.mapM (travels_run slow) (first :: rest) w₃ _ _ held₁ hran hbegun.holds
    obtain ⟨ended, held₃, hended⟩ := commit_ok hcommit hworked.holds
    refine ⟨begun ++ (worked ++ ended), held₃, ?_⟩
    rw [hpeer, List.append_assoc, List.append_assoc]
    exact hbegun.trans (hworked.trans hended)

/-- A batch that returns was sent on one connection, from its first statement to its commit,
exactly when the server was not found to have dropped that connection meanwhile. -/
theorem batch_on_one_connection_iff {s : Session Wire} {slow : Int}
    (hs : s.adapter = Adapter.postgres server installed slow) {xs : List Executable}
    {w : World Wire} {held : Held} (hxs : xs ≠ []) (hheld : w.peer.held = some held)
    (hopened : held.connection < w.peer.opened) (hok : (s.batch xs w).1.isOk = true) :
    ∃ (before : List Wire.Event) (first : Wire.Event) (after : List Wire.Event),
      (s.batch xs w).2.peer.history = w.peer.history ++ (before ++ first :: after) ∧
      (∀ e ∈ before, e.call.works = false) ∧ first.call.works = true ∧
      ((∀ e ∈ after, e.call.works = true → e.connection = first.connection) ↔
        lost server (w.peer.history ++ before ++ [first]) after = false) := by
  rcases hbatch : s.batch xs w with ⟨r, w'⟩
  rw [hbatch] at hok
  cases r with
  | error e => cases hok
  | ok results =>
    obtain ⟨events, held', hfollows⟩ := batch_follows hs hxs hheld hbatch
    obtain ⟨before, first, after, hsplit, hbefore, hfirst, hiff⟩ :=
      hfollows.line.one_connection_iff hopened rfl rfl
    exact ⟨before, first, after, hsplit ▸ hfollows.history, hbefore, hfirst, hiff⟩

/-- A server that drops the first connection once work has been done. -/
def restarting : Server := fun history event =>
  { dropped := event.connection == 0 && history.any (·.call.works) }

/-- A world in which a connection to a server is held. -/
def onServer : World Wire where
  peer := { opened := 1, held := some ⟨0, { url := .text "postgresql://db.example/app" }⟩ }

/-- Two statements. -/
def twoInserts : List Executable :=
  [.statement { query := .text "INSERT INTO ledger VALUES (1)" },
    .statement { query := .text "INSERT INTO ledger VALUES (2)" }]

/-- A session over that server. -/
def restarted : Session Wire := { adapter := Adapter.postgres restarting true 0 }

theorem batch_on_one_connection_iff_restarted :
    restarted.adapter = Adapter.postgres restarting true 0 ∧ twoInserts ≠ [] ∧
      (restarted.batch twoInserts onServer).1.isOk = true ∧
      ∃ (before : List Wire.Event) (first : Wire.Event) (after : List Wire.Event),
        (restarted.batch twoInserts onServer).2.peer.history
          = onServer.peer.history ++ (before ++ first :: after) ∧
        (∀ e ∈ before, e.call.works = false) ∧ first.call.works = true ∧
        ((∀ e ∈ after, e.call.works = true → e.connection = first.connection) ↔
          lost restarting (onServer.peer.history ++ before ++ [first]) after = false) := by
  have hsome : twoInserts ≠ [] := List.cons_ne_nil _ _
  have hok : (restarted.batch twoInserts onServer).1.isOk = true := by decide +kernel
  exact ⟨rfl, hsome, hok, batch_on_one_connection_iff rfl hsome rfl Nat.zero_lt_one hok⟩

/-- A batch returns although its statements were sent on two connections. -/
theorem batch_on_two_connections :
    let ran := restarted.batch twoInserts onServer
    ran.1.isOk = true ∧
      (ran.2.peer.history.filter (·.call.works)).map (·.connection) = [0, 1, 1] := by
  decide +kernel

end Querywright
