/-
  Connections that an adapter has given up are not touched again.

  * `Wire.Step`: a call that an adapter may make on a wire. It is made on the connection that is
    held, asks for a new one, or makes ready the one that was asked for just before.
  * `Wire.GivenUp`: the calls by which a connection is given up. It was closed, or another one was
    made ready in its place.
  * `Wire.Sound.step`: no step touches a connection that was given up, and so no sequence does.
  * `Leads`: actions that go by steps, whatever they come to. Those of both adapters do
    (`Adapter.goes_sqlite`, `Adapter.goes_postgres`).
  * `released_connections_rest`: so it is for everything that is asked of an adapter.
-/
import Mathlib.Logic.Relation
import Querywright.Adapter.Sqlite
import Querywright.Proofs.Adapter.Reconnection

namespace Querywright

open Relation (ReflTransGen)
open Wire (Event Held Server)

variable {α β : Type} {server : Server}

namespace Wire

/-! ## Steps -/

/-- The call that makes a new connection ready. -/
def Call.readies : Call → Bool
  | .setAutocommit _ => true
  | .direct sql => sql == "PRAGMA foreign_keys = ON"
  | _ => false

/-- The call closes a connection. -/
def Call.closes : Call → Bool
  | .close => true
  | _ => false

/-- The call neither opens a connection nor makes it ready or closes it. -/
def Call.serves : Call → Bool
  | .connect _ _ => false
  | .close => false
  | call => !call.readies

/-- A call, and what is held after it. -/
inductive Step (server : Server) (wire : Wire) : Wire → Prop
  | used {held : Held} {call : Call} (hheld : wire.held = some held) (hcall : call.serves = true) :
    Step server wire (wire.called [⟨held.connection, call⟩])
  | closed {held : Held} (hheld : wire.held = some held) :
    Step server wire ({ wire with held := none }.called [⟨held.connection, .close⟩])
  | asked (target options : Value) :
    Step server wire
      ({ wire with opened := wire.opened + 1 }.called [⟨wire.opened, .connect target options⟩])
  /-- The connection that was asked for cannot be made ready. What is held stays so. -/
  | unready {c : Nat} {target options : Value} {call : Call}
    (hlast : wire.history.getLast? = some ⟨c, .connect target options⟩)
    (hcall : call.readies = true) (hfails : (server wire.history ⟨c, call⟩).failure ≠ none) :
    Step server wire (wire.called [⟨c, call⟩])
  | readied {c : Nat} {target options : Value} {call : Call} (settings : Settings)
    (hlast : wire.history.getLast? = some ⟨c, .connect target options⟩)
    (hcall : call.readies = true) (hready : (server wire.history ⟨c, call⟩).failure = none) :
    Step server wire ({ wire with held := some ⟨c, settings⟩ }.called [⟨c, call⟩])

/-! ## Connections that are given up -/

/-- With this call a connection is given up: it is closed, or another one is ready instead of it. -/
def GivesUp (server : Server) (before : List Event) (e : Event) (c : Nat) : Prop :=
  e.connection = c ∧ e.call = .close ∨
    e.call.readies = true ∧ (server before e).failure = none ∧ e.connection ≠ c ∧
      ∃ older ∈ before, older.connection = c

/-- With one of the calls the connection was given up. -/
def GivenUp (server : Server) (history : List Event) (c : Nat) : Prop :=
  ∃ before e, before ++ [e] <+: history ∧ GivesUp server before e c

/-- Which connection is held after a call. -/
def holderAfter (server : Server) (before : List Event) (held : Option Nat) (e : Event) :
    Option Nat :=
  match e.call with
  | .close => none
  | call =>
    if call.readies && (server before e).failure.isNone then some e.connection else held

/-- Which connection is held after more calls: the last one that was made ready, if it has not been
closed since. -/
def holder (server : Server) (before : List Event) (held : Option Nat) : List Event → Option Nat
  | [] => held
  | e :: rest => holder server (before ++ [e]) (holderAfter server before held e) rest

variable {wire wire' : Wire} {history before : List Event} {e : Event} {c : Nat} {call : Call}

theorem holder_concat (held : Option Nat) (events : List Event) :
    holder server before held (events ++ [e])
      = holderAfter server (before ++ events) (holder server before held events) e := by
  induction events generalizing before held with
  | nil =>
    rw [List.append_nil]
    rfl
  | cons first rest ih =>
    rw [List.cons_append, holder, holder, ih, List.append_assoc]
    rfl

theorem givenUp_concat :
    GivenUp server (history ++ [e]) c ↔ GivenUp server history c ∨ GivesUp server history e c := by
  constructor
  · rintro ⟨before, e', hprefix, hgives⟩
    rcases List.prefix_concat_iff.1 hprefix with hwhole | hprefix
    · obtain ⟨rfl, hlast⟩ := List.append_inj' hwhole rfl
      cases hlast
      exact .inr hgives
    · exact .inl ⟨before, e', hprefix, hgives⟩
  · rintro (⟨before, e', hprefix, hgives⟩ | hgives)
    · exact ⟨before, e', hprefix.trans (List.prefix_append _ _), hgives⟩
    · exact ⟨history, e, List.prefix_rfl, hgives⟩

/-- Only what was called can be given up. -/
theorem GivenUp.mem (h : GivenUp server history c) : ∃ e ∈ history, e.connection = c := by
  obtain ⟨before, e, hprefix, ⟨hc, -⟩ | ⟨-, -, -, older, hold, hc⟩⟩ := h
  · exact ⟨e, hprefix.subset (List.mem_append_right _ List.mem_cons_self), hc⟩
  · exact ⟨older, hprefix.subset (List.mem_append_left _ hold), hc⟩

theorem ne_close_of_readies (hcall : call.readies = true) : call ≠ .close := by
  rintro rfl
  cases hcall

theorem not_givesUp_of_serves (hcall : e.call.serves = true) : ¬ GivesUp server before e c := by
  rintro (⟨-, hclose⟩ | ⟨hready, -⟩)
  · rw [hclose] at hcall
    cases hcall
  · rcases e with ⟨_, call⟩
    cases call <;> simp_all [Call.serves, Call.readies]

/-- What the calls of an adapter have come to. -/
structure Sound (server : Server) (wire : Wire) : Prop where
  numbered : ∀ e ∈ wire.history, e.connection < wire.opened
  held : ∀ held, wire.held = some held →
    held.connection < wire.opened ∧ ¬ GivenUp server wire.history held.connection
  untouched : ∀ before e, before ++ [e] <+: wire.history →
    ¬ GivenUp server before e.connection
  holds : holder server [] none wire.history = wire.held.map (·.connection)

namespace Sound

theorem empty (server : Server) : Sound server {} where
  numbered := List.forall_mem_nil _
  held := nofun
  untouched _ _ h := absurd (List.prefix_nil.1 h) (List.append_ne_nil_of_right_ne_nil _ nofun)
  holds := rfl

/-- One more call, on a connection that was not given up. -/
theorem called (h : Sound server wire) {opened : Nat} {held : Option Held}
    (hmore : wire.opened ≤ opened) (hopened : e.connection < opened)
    (huntouched : ¬ GivenUp server wire.history e.connection)
    (hheld : ∀ now, held = some now →
      now.connection < opened ∧ ¬ GivenUp server (wire.history ++ [e]) now.connection)
    (hholds : holderAfter server wire.history (wire.held.map (·.connection)) e
      = held.map (·.connection)) :
    Sound server { history := wire.history ++ [e], opened, held } where
  numbered e' he := by
    rcases List.mem_append.1 he with he | he
    · exact Nat.lt_of_lt_of_le (h.numbered e' he) hmore
    · cases List.mem_singleton.1 he
      exact hopened
  held := hheld
  untouched before e' hprefix := by
    rcases List.prefix_concat_iff.1 hprefix with hwhole | hprefix
    · obtain ⟨rfl, hlast⟩ := List.append_inj' hwhole rfl
      cases hlast
      exact huntouched
    · exact h.untouched before e' hprefix
  holds := by
    rw [holder_concat, h.holds, List.nil_append]
    exact hholds

/-- The connection that was asked for last is not given up by that. -/
theorem last_of_connect (h : Sound server wire) {target options : Value}
    (hlast : wire.history.getLast? = some ⟨c, .connect target options⟩) :
    c < wire.opened ∧ ¬ GivenUp server wire.history c := by
  obtain ⟨before, hbefore⟩ := List.getLast?_eq_some_iff.1 hlast
  refine ⟨h.numbered _ (List.mem_of_getLast? hlast), ?_⟩
  rw [hbefore, givenUp_concat]
  rintro (hup | hup)
  · exact h.untouched before _ ⟨[], by rw [List.append_nil, hbefore]⟩ hup
  · rcases hup with ⟨-, hclose⟩ | ⟨hready, -⟩
    · cases hclose
    · cases hready

/-- A step touches no connection that was given up. -/
theorem step (h : Sound server wire) (hstep : Step server wire wire') : Sound server wire' := by
  cases hstep with
  | @used held call hheld hcall =>
    obtain ⟨hopened, hkept⟩ := h.held held hheld
    refine h.called (Nat.le_refl _) hopened hkept (fun now hnow => ?_) ?_
    · rw [givenUp_concat, not_or]
      exact ⟨(h.held now hnow).1, (h.held now hnow).2, not_givesUp_of_serves hcall⟩
    · cases call <;> simp_all [holderAfter, Call.serves]
  | closed hheld =>
    obtain ⟨hopened, hkept⟩ := h.held _ hheld
    exact h.called (Nat.le_refl _) hopened hkept nofun rfl
  | asked target options =>
    refine h.called (Nat.le_succ _) (Nat.lt_succ_self _) ?_ (fun now hnow => ?_) rfl
    · intro hup
      obtain ⟨e, he, hc⟩ := hup.mem
      exact absurd (h.numbered e he) (hc ▸ Nat.lt_irrefl _)
    · obtain ⟨hopened, hkept⟩ := h.held now hnow
      refine ⟨Nat.lt_succ_of_lt hopened, ?_⟩
      rw [givenUp_concat, not_or]
      exact ⟨hkept, fun hup => by rcases hup with ⟨-, ⟨⟩⟩ | ⟨⟨⟩, -⟩⟩
  | @unready c target options call hlast hcall hfails =>
    obtain ⟨hopened, hkept⟩ := h.last_of_connect hlast
    refine h.called (Nat.le_refl _) hopened hkept (fun now hnow => ?_) ?_
    · rw [givenUp_concat, not_or]
      refine ⟨(h.held now hnow).1, (h.held now hnow).2, ?_⟩
      rintro (⟨-, hclose⟩ | ⟨-, hanswered, -⟩)
      · exact ne_close_of_readies hcall hclose
      · exact hfails hanswered
    · cases call <;> simp_all [holderAfter, Call.readies]
  | @readied c target options call settings hlast hcall hready =>
    obtain ⟨hopened, hkept⟩ := h.last_of_connect hlast
    refine h.called (Nat.le_refl _) hopened hkept (fun now hnow => ?_) ?_
    · cases hnow
      refine ⟨hopened, ?_⟩
      rw [givenUp_concat, not_or]
      refine ⟨hkept, ?_⟩
      rintro (⟨-, hclose⟩ | ⟨-, -, hother, -⟩)
      · exact ne_close_of_readies hcall hclose
      · exact hother rfl
    · cases call <;> simp_all [holderAfter, Call.readies]

theorem steps (h : Sound server wire) (hsteps : ReflTransGen (Step server) wire wire') :
    Sound server wire' := by
  induction hsteps with
  | refl => exact h
  | tail _ hstep ih => exact ih.step hstep

end Sound

/-- What is promised of the calls on a wire. -/
structure LeavesAlone (server : Server) (wire : Wire) : Prop where
  /-- A connection is closed once at most. -/
  closedOnce : ∀ c,
    wire.history.countP (fun e => e.connection == c && e.call.closes) ≤ 1
  /-- After it was closed, even if that failed, nothing is called on it. -/
  closed : ∀ before c after, wire.history = before ++ ⟨c, .close⟩ :: after →
    ∀ e ∈ after, e.connection ≠ c
  /-- After another one was made ready in its place, nothing is called on it. -/
  replaced : ∀ before e after, wire.history = before ++ e :: after → e.call.readies = true →
    (server before e).failure = none → ∀ older ∈ before, older.connection ≠ e.connection →
      ∀ later ∈ after, later.connection ≠ older.connection
  /-- Held is the last one that was made ready, if it has not been closed since. -/
  held : wire.held.map (·.connection) = holder server [] none wire.history

theorem countP_close_le_one
    (h : ∀ before c after, history = before ++ ⟨c, .close⟩ :: after →
      ∀ e ∈ after, e.connection ≠ c) (c : Nat) :
    history.countP (fun e => e.connection == c && e.call.closes) ≤ 1 := by
  induction history with
  | nil => exact Nat.zero_le 1
  | cons first rest ih =>
    have hrest := ih fun before c after hsplit =>
      h (first :: before) c after (congrArg (first :: ·) hsplit)
    by_cases hfirst : (first.connection == c && first.call.closes) = true
    · obtain ⟨hc, hcloses⟩ := Bool.and_eq_true_iff.1 hfirst
      have hsplit : first :: rest = [] ++ ⟨c, .close⟩ :: rest := by
        rcases first with ⟨_, call⟩
        cases eq_of_beq hc
        cases call <;> first | rfl | cases hcloses
      have hnone : rest.countP (fun e => e.connection == c && e.call.closes) = 0 :=
        List.countP_eq_zero.2 fun e he => by simp [h [] c rest hsplit e he]
      have hone : (first :: rest).countP (fun e => e.connection == c && e.call.closes) = 1 := by
        rw [List.countP_cons, if_pos hfirst, hnone]
      exact Nat.le_of_eq hone
    · rw [List.countP_cons, if_neg hfirst]
      exact hrest

/-- A call between others is made on a connection that was not given up before it. -/
theorem Sound.of_split (h : Sound server wire) {before after : List Event}
    (hsplit : wire.history = before ++ e :: after) {later : Event} (hlater : later ∈ after) :
    ¬ GivesUp server before e later.connection := by
  obtain ⟨middle, rest, rfl⟩ := List.append_of_mem hlater
  have hprefix : (before ++ e :: middle) ++ [later] <+: wire.history :=
    ⟨rest, by rw [hsplit]; simp⟩
  exact fun hgives => h.untouched _ _ hprefix
    ⟨before, e, ⟨middle, by rw [List.append_assoc]; rfl⟩, hgives⟩

theorem Sound.leavesAlone (h : Sound server wire) : LeavesAlone server wire := by
  have hclosed : ∀ before c after, wire.history = before ++ ⟨c, .close⟩ :: after →
      ∀ e ∈ after, e.connection ≠ c :=
    fun _ _ _ hsplit _ he hc => h.of_split hsplit he (.inl ⟨hc.symm, rfl⟩)
  refine ⟨countP_close_le_one hclosed, hclosed, ?_, h.holds.symm⟩
  intro before e after hsplit hcall hready older hold hother later hlater hc
  exact h.of_split hsplit hlater
    (.inr ⟨hcall, hready, fun hsame => hother (hc ▸ hsame.symm), older, hold, hc.symm⟩)

end Wire

/-! ## Actions -/

/-- From wires of which the precondition holds, the action goes by steps, whatever it comes to. When
it succeeds, the postcondition holds of its outcome and the wire. -/
def Leads (server : Server) (pre : Wire → Prop) (a : Action Wire α) (post : α → Wire → Prop) :
    Prop :=
  ∀ w, pre w.peer → ReflTransGen (Wire.Step server) w.peer (a w).2.peer ∧
    ∀ x, (a w).1 = .ok x → post x (a w).2.peer

/-- Any wire. -/
abbrev anyWire : Wire → Prop := fun _ => True

/-- The wire holds a connection. -/
def Holding (c : Nat) (wire : Wire) : Prop := ∃ held, wire.held = some held ∧ held.connection = c

/-- The connection was asked for just now. -/
def Fresh (c : Nat) (wire : Wire) : Prop :=
  ∃ target options, wire.history.getLast? = some ⟨c, .connect target options⟩

namespace Leads

variable {pre : Wire → Prop} {post : α → Wire → Prop} {a : Action Wire α}

/-- An action that makes no call. -/
theorem still (h : ∀ w, (a w).2.peer = w.peer) : Leads server pre a fun _ => pre := by
  intro w hpre
  rw [h w]
  exact ⟨.refl, fun _ _ => hpre⟩

theorem ofExcept (r : Except Fault α) : Leads server pre (Action.ofExcept r) fun _ => pre :=
  still fun _ => rfl

theorem throw (e : Fault) : Leads server pre (MonadExcept.throw e : Action Wire α) post :=
  fun _ _ => ⟨.refl, nofun⟩

theorem pure (x : α) : Leads server pre (Pure.pure x) fun _ => pre := still fun _ => rfl

theorem now : Leads server pre Action.now fun _ => pre := still fun _ => rfl

theorem log (e : Journal.Entry) : Leads server pre (Action.log e) fun _ => pre := still fun _ => rfl

theorem bind {f : α → Action Wire β} {last : β → Wire → Prop} (h : Leads server pre a post)
    (hnext : ∀ x, Leads server (post x) (f x) last) : Leads server pre (a >>= f) last := by
  intro w hpre
  obtain ⟨hsteps, hpost⟩ := h w hpre
  rcases ha : a w with ⟨r, w₁⟩
  rw [ha] at hsteps hpost
  cases r with
  | error e =>
    rw [Action.bind_of_error ha]
    exact ⟨hsteps, nofun⟩
  | ok x =>
    rw [Action.bind_of_ok ha]
    obtain ⟨hmore, hlast⟩ := hnext x w₁ (hpost x rfl)
    exact ⟨hsteps.trans hmore, hlast⟩

/-- Nothing more is to be known of the wire. -/
theorem done (h : Leads server pre a post) : Leads server pre a fun _ => anyWire :=
  fun w hw => ⟨(h w hw).1, fun _ _ => trivial⟩

theorem mapFault (g : Fault → Fault) (h : Leads server pre a post) :
    Leads server pre (Action.mapFault g a) post := by
  intro w hpre
  obtain ⟨hsteps, hpost⟩ := h w hpre
  rw [Action.mapFault_apply]
  refine ⟨hsteps, fun x hx => hpost x ?_⟩
  cases hr : (a w).1 with
  | error e => rw [hr] at hx; cases hx
  | ok y => rw [hr] at hx; exact hx

theorem timed {speaker name : String} {slow : Int} {sql : Value} {values : List Value}
    (h : Leads server pre a post) :
    Leads server pre (Action.timed speaker name slow sql values a) post := by
  intro w hpre
  obtain ⟨hsteps, hpost⟩ := h w hpre
  exact ⟨hsteps, hpost⟩

end Leads

/-- The action comes to a fault and changes nothing. -/
def Refuses {σ : Type} (w : World σ) (a : Action σ α) : Prop := ∃ f, a w = (.error f, w)

namespace Refuses

variable {w : World Wire} {a : Action Wire α} {f : α → Action Wire β}

theorem bind (h : Refuses w a) : Refuses w (a >>= f) := by
  obtain ⟨e, he⟩ := h
  exact ⟨e, Action.bind_of_error he⟩

/-- What comes before changes nothing either. -/
theorem after (h : (a w).2 = w) (hnext : ∀ x, Refuses w (f x)) : Refuses w (a >>= f) := by
  have hrun : a w = ((a w).1, w) := Prod.ext rfl h
  rcases hr : (a w).1 with e | x <;> rw [hr] at hrun
  · exact ⟨e, Action.bind_of_error hrun⟩
  · obtain ⟨e, he⟩ := hnext x
    exact ⟨e, (Action.bind_of_ok hrun).trans he⟩

end Refuses

/-- Looking up the connection that is held makes no call. -/
theorem Leads.of_held {a : Action Wire α} {g : Held → α} {number : α → Nat}
    (hsome : ∀ {w : World Wire} {held : Held}, w.peer.held = some held → a w = (.ok (g held), w))
    (hnone : ∀ {w : World Wire}, w.peer.held = none → Refuses w a)
    (hnumber : ∀ held, number (g held) = held.connection) :
    Leads server anyWire a fun x => Holding (number x) := by
  intro w _
  cases hheld : w.peer.held with
  | none =>
    obtain ⟨e, he⟩ := hnone hheld
    rw [he]
    refine ⟨.refl, fun x hx => ?_⟩
    cases hx
  | some held =>
    rw [hsome hheld]
    refine ⟨.refl, fun x hx => ?_⟩
    cases hx
    exact ⟨held, hheld, (hnumber held).symm⟩

/-! ## Calls -/

namespace Wire

theorem leads_send {c : Nat} {call : Call} (hcall : call.serves = true) :
    Leads server (Holding c) (send server c call) fun _ => Holding c := by
  rintro w ⟨held, hheld, rfl⟩
  rw [send_apply]
  exact ⟨.single (.used hheld hcall), fun _ _ => ⟨held, hheld, rfl⟩⟩

theorem leads_query (c : Nat) (sql : Value) (values : Option (List Value)) :
    Leads server (Holding c) (query server c sql values) fun _ => Holding c :=
  (leads_send rfl).bind fun _ => .pure _

theorem leads_isDropped (c : Nat) :
    Leads server (Holding c) (isDropped server c) fun _ => Holding c := by
  rintro w ⟨held, hheld, rfl⟩
  exact ⟨.single (.used hheld rfl), fun _ _ => ⟨held, hheld, rfl⟩⟩

theorem leads_connect (target options : Value) :
    Leads server anyWire (connect server target options) Fresh := by
  intro w _
  let asked : World Wire := { w with peer := { w.peer with opened := w.peer.opened + 1 } }
  have hrun : connect server target options w = (do
      let _ ← send server w.peer.opened (.connect target options)
      return w.peer.opened) asked := rfl
  rcases hsend : send server w.peer.opened (.connect target options) asked with ⟨r, w'⟩
  have hpeer : w'.peer = asked.peer.called [⟨w.peer.opened, .connect target options⟩] :=
    Adapter.Postgres.send_eq hsend
  rw [hrun, Action.bind_pure_of_eq hsend]
  refine ⟨?_, fun c hc => ?_⟩
  · rw [hpeer]
    exact .single (.asked target options)
  · cases r with
    | error e => cases hc
    | ok reply =>
      cases hc
      exact ⟨target, options, by rw [hpeer, history_called, List.getLast?_concat]⟩

/-- A connection that is made ready is held. -/
theorem leads_ready (c : Nat) {call : Call} (settings : Settings) (hcall : call.readies = true)
    {f : Reply → Action Wire Unit}
    (hf : ∀ reply w, (f reply w).2.peer = { w.peer with held := some ⟨c, settings⟩ }) :
    Leads server (Fresh c) (send server c call >>= f) fun _ => Holding c := by
  rintro w ⟨target, options, hlast⟩
  let e : Event := ⟨c, call⟩
  cases hreply : (server w.peer.history e).failure with
  | some d =>
    have hsend : send server c call w
        = (.error (.driver d), w.called e (server w.peer.history e).elapsed) := by
      rw [send_apply, Reply.outcome_of_failed hreply]
    have hfails : (server w.peer.history e).failure ≠ none := by
      rw [hreply]
      nofun
    rw [Action.bind_of_error hsend]
    exact ⟨.single (.unready hlast hcall hfails), nofun⟩
  | none =>
    have hsend : send server c call w = (.ok (server w.peer.history e),
        w.called e (server w.peer.history e).elapsed) := by
      rw [send_apply, Reply.outcome_of_answered hreply]
    rw [Action.bind_of_ok hsend, hf]
    exact ⟨.single (.readied settings hlast hcall hreply), fun _ _ => ⟨_, rfl, rfl⟩⟩

theorem leads_release : Leads server anyWire (release server) fun _ => anyWire := by
  intro w _
  refine ⟨?_, fun _ _ => trivial⟩
  rw [release, Action.bind_of_ok (Action.peer_apply w)]
  cases hheld : w.peer.held with
  | none => exact .refl
  | some held =>
    let freed : World Wire := { w with peer := { w.peer with held := none } }
    have hfree : Action.setPeer (fun wire : Wire => { wire with held := none }) w
        = (.ok (), freed) := rfl
    dsimp only
    rw [Action.bind_of_ok hfree, Action.bind_pure_of_eq (send_apply ..)]
    exact .single (.closed hheld)

end Wire

/-! ## Adapters -/

namespace Adapter

/-- What may be asked of an adapter. -/
inductive Use where
  | connect (settings : Settings)
  | close
  | execute (sql : Value) (values : List Value)
  | run (s : Statement)
  | begin
  | commit
  | rollback

/-- It is done on the connection that is held. -/
def Use.needsConnection : Use → Bool
  | .connect _ => false
  | .close => false
  | _ => true

/-- Ask for it. -/
def use {σ : Type} (a : Adapter σ) : Use → Action σ Unit
  | .connect settings => a.connect settings
  | .close => a.close
  | .execute sql values => do let _ ← a.execute sql values
  | .run s => do let _ ← a.run s
  | .begin => a.begin
  | .commit => a.commit
  | .rollback => a.rollback

/-- The world after one use after the other, whatever they come to. -/
def afterAll {σ : Type} (a : Adapter σ) (uses : List Use) (w : World σ) : World σ :=
  uses.foldl (fun w u => (a.use u w).2) w

/-- Everything that is asked of the adapter goes by steps. -/
def Goes (server : Server) (a : Adapter Wire) : Prop :=
  ∀ u, Leads server anyWire (a.use u) fun _ => anyWire

theorem Goes.afterAll {a : Adapter Wire} (h : a.Goes server) (uses : List Use) (w : World Wire) :
    ReflTransGen (Wire.Step server) w.peer (a.afterAll uses w).peer := by
  induction uses generalizing w with
  | nil => exact .refl
  | cons u rest ih => exact (h u w trivial).1.trans (ih (a.use u w).2)

namespace Sqlite

theorem connection_of_some {w : World Wire} {held : Held} (h : w.peer.held = some held) :
    connection w = (.ok held.connection, w) := by
  rw [connection, Action.bind_of_ok (Action.peer_apply w), h]
  rfl

theorem refuses_connection {w : World Wire} (h : w.peer.held = none) : Refuses w connection := by
  rw [Refuses, connection, Action.bind_of_ok (Action.peer_apply w), h]
  exact ⟨_, rfl⟩

theorem leads_connection : Leads server anyWire connection Holding :=
  .of_held connection_of_some refuses_connection fun _ => rfl

theorem leads_connect (s : Settings) :
    Leads server anyWire (connect server s) fun _ => anyWire :=
  (Leads.ofExcept _).bind fun _ => (Wire.leads_connect _ _).bind fun c =>
    (Wire.leads_ready c s rfl fun _ _ => rfl).done

theorem leads_execute (slow : Int) (sql : Value) (values : List Value) :
    Leads server anyWire (execute server slow sql values) fun _ => anyWire :=
  leads_connection.bind fun c => (Wire.leads_send rfl).bind fun _ =>
    (((Wire.leads_query c sql _).mapFault _).timed).done

theorem leads_run (slow : Int) (s : Statement) :
    Leads server anyWire (run server slow s) fun _ => anyWire := by
  have hstart : Leads server anyWire (start server slow s) fun _ => anyWire :=
    (Leads.ofExcept _).bind fun _ => (leads_execute slow _ _).bind fun _ => .pure _
  refine Leads.now.bind fun _ => hstart.bind fun p => (Leads.ofExcept _).bind fun _ => ?_
  split
  · exact .throw _
  · exact (Leads.ofExcept _).bind fun _ => Leads.now.bind fun _ => .pure _

theorem leads_onConnection {call : Wire.Call} (hcall : call.serves = true) :
    Leads server anyWire (onConnection server call) fun _ => anyWire :=
  leads_connection.bind fun _ => (Wire.leads_send hcall).bind fun _ => (Leads.pure ()).done

end Sqlite

theorem goes_sqlite (server : Server) (slow : Int) : (sqlite server slow).Goes server
  | .connect s => Sqlite.leads_connect s
  | .close => Wire.leads_release
  | .execute sql values => (Sqlite.leads_execute slow sql values).bind fun _ => .pure ()
  | .run s => (Sqlite.leads_run slow s).bind fun _ => .pure ()
  | .begin | .commit | .rollback => Sqlite.leads_onConnection rfl

namespace Postgres

theorem refuses_held {w : World Wire} (h : w.peer.held = none) : Refuses w held := by
  rw [Refuses, held, Action.bind_of_ok (Action.peer_apply w), h]
  exact ⟨_, rfl⟩

theorem leads_held : Leads server anyWire held fun held => Holding held.connection :=
  .of_held held_ok refuses_held fun _ => rfl

variable {installed : Bool}

theorem leads_connect (s : Settings) :
    Leads server anyWire (connect server installed s) fun _ => anyWire := by
  cases installed with
  | false => exact .throw _
  | true =>
    exact (Leads.ofExcept _).bind fun _ => (Leads.log _).bind fun _ =>
      Leads.bind (.mapFault _ ((Leads.ofExcept _).bind fun _ => (Leads.ofExcept _).bind fun _ =>
        Wire.leads_connect _ _)) fun c =>
          (Wire.leads_ready c s rfl fun _ _ => rfl).done

theorem leads_connection :
    Leads server anyWire (connection server installed) fun held => Holding held.connection := by
  refine leads_held.bind fun now => (Wire.leads_isDropped _).bind fun dropped => ?_
  cases dropped with
  | true =>
    exact (Leads.log _).bind fun _ =>
      Leads.bind (fun w _ => leads_connect now.settings w trivial) fun _ => leads_held
  | false =>
    intro w hheld
    refine ⟨.refl, fun held hc => ?_⟩
    cases hc
    exact hheld

theorem leads_execute (slow : Int) (sql : Value) (values : List Value) :
    Leads server anyWire (execute server installed slow sql values) fun _ => anyWire := by
  refine (Leads.ofExcept _).bind fun _ => ?_
  split
  · exact .throw _
  · exact leads_connection.bind fun now => (Wire.leads_send rfl).bind fun _ =>
      (((Wire.leads_query _ sql _).mapFault _).timed).done

theorem leads_run (slow : Int) (s : Statement) :
    Leads server anyWire (run server installed slow s) fun _ => anyWire := by
  have hstart : Leads server anyWire (start server installed slow s) fun _ => anyWire :=
    (Leads.ofExcept _).bind fun _ => (leads_execute slow _ _).bind fun _ => .pure _
  exact Leads.now.bind fun _ => hstart.bind fun p => (Leads.ofExcept _).bind fun _ =>
    (Leads.ofExcept _).bind fun _ => Leads.now.bind fun _ => .pure _

theorem leads_begin : Leads server anyWire (begin server installed) fun _ => anyWire := by
  refine leads_connection.bind fun now => ?_
  split
  · exact (Wire.leads_send rfl).bind fun _ => (Wire.leads_query _ _ _).bind fun _ =>
      (Leads.pure ()).done
  · exact (Leads.pure ()).done

theorem leads_onConnection {call : Wire.Call} (hcall : call.serves = true) :
    Leads server anyWire (onConnection server installed call) fun _ => anyWire :=
  leads_connection.bind fun _ => (Wire.leads_send hcall).bind fun _ => (Leads.pure ()).done

end Postgres

theorem goes_postgres (server : Server) (installed : Bool) (slow : Int) :
    (postgres server installed slow).Goes server
  | .connect s => Postgres.leads_connect s
  | .close => Wire.leads_release
  | .execute sql values => (Postgres.leads_execute slow sql values).bind fun _ => .pure ()
  | .run s => (Postgres.leads_run slow s).bind fun _ => .pure ()
  | .begin => Postgres.leads_begin
  | .commit | .rollback => Postgres.leads_onConnection rfl

/-! ## Without a connection -/

section

variable {w : World Wire} (hheld : w.peer.held = none)

include hheld

namespace Sqlite

theorem refuses_execute (slow : Int) (sql : Value) (values : List Value) :
    Refuses w (execute server slow sql values) := (refuses_connection hheld).bind

theorem refuses_run (slow : Int) (s : Statement) : Refuses w (run server slow s) :=
  .after rfl fun _ => .bind (.after rfl fun _ => (refuses_execute hheld ..).bind)

end Sqlite

namespace Postgres

variable {installed : Bool}

theorem refuses_connection : Refuses w (connection server installed) := (refuses_held hheld).bind

theorem refuses_execute (slow : Int) (sql : Value) (values : List Value) :
    Refuses w (execute server installed slow sql values) := by
  refine .after rfl fun _ => ?_
  split
  · exact ⟨_, rfl⟩
  · exact (refuses_connection hheld).bind

theorem refuses_run (slow : Int) (s : Statement) : Refuses w (run server installed slow s) :=
  .after rfl fun _ => .bind (.after rfl fun _ => (refuses_execute hheld ..).bind)

end Postgres

theorem release_of_none : Wire.release server w = (.ok (), w) := by
  rw [Wire.release, Action.bind_of_ok (Action.peer_apply w), hheld]
  rfl

end

/-- What is promised of the connections of an adapter: those that it has given up are left alone,
whatever is asked of it from the start on, and without one it makes no call. -/
structure Releases (server : Server) (a : Adapter Wire) : Prop where
  rest : ∀ (uses : List Use) (w : World Wire),
    (a.afterAll uses { w with peer := {} }).peer.LeavesAlone server
  refuses : ∀ (u : Use) (w : World Wire), w.peer.held = none → u.needsConnection = true →
    ∃ f, a.use u w = (.error f, w)
  close : ∀ w : World Wire, w.peer.held = none → a.use .close w = (.ok (), w)

theorem Goes.rest {a : Adapter Wire} (h : a.Goes server) (uses : List Use) (w : World Wire) :
    (a.afterAll uses { w with peer := {} }).peer.LeavesAlone server :=
  ((Wire.Sound.empty server).steps (h.afterAll uses { w with peer := {} })).leavesAlone

theorem sqlite_releases (server : Server) (slow : Int) : (sqlite server slow).Releases server where
  rest := (goes_sqlite server slow).rest
  refuses u w hheld hneeds := by
    cases u with
    | connect | close => cases hneeds
    | execute sql values => exact (Sqlite.refuses_execute hheld ..).bind
    | run s => exact (Sqlite.refuses_run hheld ..).bind
    | begin | commit | rollback => exact (Sqlite.refuses_connection hheld).bind
  close _ hheld := release_of_none hheld

theorem postgres_releases (server : Server) (installed : Bool) (slow : Int) :
    (postgres server installed slow).Releases server where
  rest := (goes_postgres server installed slow).rest
  refuses u w hheld hneeds := by
    cases u with
    | connect | close => cases hneeds
    | execute sql values => exact (Postgres.refuses_execute hheld ..).bind
    | run s => exact (Postgres.refuses_run hheld ..).bind
    | begin | commit | rollback => exact (Postgres.refuses_connection hheld).bind
  close _ hheld := release_of_none hheld

end Adapter

/-- Connections that were given up are not touched again, whatever is asked of an adapter, whichever
calls fail and whenever the server drops a connection. Without a connection all but opening and
closing is refused without a call, and closing does nothing. -/
theorem released_connections_rest (server : Server) (installed : Bool) (slow : Int) :
    (Adapter.sqlite server slow).Releases server ∧
      (Adapter.postgres server installed slow).Releases server :=
  ⟨Adapter.sqlite_releases server slow, Adapter.postgres_releases server installed slow⟩

end Querywright
