/-
  Lines: on which connection calls are made while a server drops connections.

  * `send_apply`: what a call comes to, and what it leaves.
  * `OnLine`: every call is made on the current connection. It is replaced by a fresh one when a
    probe finds it dropped, and at no other time.
  * `OnLine.current`: without such a probe all calls are made on one connection, and with one the
    current connection at the end is another.
-/
import Querywright.Proofs.Action
import Querywright.Wire.Basic

namespace Querywright

/-! ## One call -/

/-- The world after a call that takes some time. -/
def World.called (w : World Wire) (e : Wire.Event) (elapsed : Journal.Micros) : World Wire :=
  { w with clock := w.clock + elapsed, peer := { w.peer with history := w.peer.history ++ [e] } }

namespace Wire

/-- What a call that is answered so comes to. -/
def Reply.outcome (reply : Reply) : Except Fault Reply :=
  reply.failure.elim (.ok reply) fun d => .error (.driver d)

theorem Reply.outcome_of_answered {reply : Reply} (h : reply.failure = none) :
    reply.outcome = .ok reply := by
  rw [Reply.outcome, h]
  rfl

theorem Reply.outcome_of_failed {reply : Reply} {d : DriverFault} (h : reply.failure = some d) :
    reply.outcome = .error (.driver d) := by
  rw [Reply.outcome, h]
  rfl

theorem send_apply (server : Server) (c : Nat) (call : Call) (w : World Wire) :
    send server c call w = ((server w.peer.history ⟨c, call⟩).outcome,
      w.called ⟨c, call⟩ (server w.peer.history ⟨c, call⟩).elapsed) := by
  rw [send, Action.bind_of_ok (Action.peer_apply w), Reply.outcome]
  cases (server w.peer.history ⟨c, call⟩).failure <;> rfl

/-! ## Lines -/

/-- The call is a question whether the connection is dropped. -/
def Call.asks : Call → Bool
  | .probe => true
  | _ => false

/-- The call runs a statement, or ends a transaction. -/
def Call.works : Call → Bool
  | .execute _ _ => true
  | .commit => true
  | .rollback => true
  | _ => false

theorem Call.asks_of_works {call : Call} (h : call.works = true) : call.asks = false := by
  cases call <;> first | rfl | cases h

/-- The connection that is used now, and how many have been asked for. -/
structure Line where
  current : Nat
  opened : Nat

/-- A call is a probe that finds the connection dropped. -/
def finds (server : Server) (history : List Event) (e : Event) : Bool :=
  e.call.asks && (server history e).dropped

/-- The line after a call: a connection that is found dropped is replaced by the next one. -/
def Line.after (server : Server) (history : List Event) (line : Line) (e : Event) : Line :=
  if finds server history e then ⟨line.opened, line.opened + 1⟩ else line

/-- Whether a probe among the calls finds its connection dropped. -/
def lost (server : Server) : List Event → List Event → Bool
  | _, [] => false
  | history, e :: events => finds server history e || lost server (history ++ [e]) events

/-- Calls that follow a line. -/
def OnLine (server : Server) : List Event → Line → List Event → Line → Prop
  | _, line, [], line' => line' = line
  | history, line, e :: events, line' =>
    e.connection = line.current ∧
      OnLine server (history ++ [e]) (line.after server history e) events line'

variable {server : Server} {history : List Event} {line line' : Line} {events : List Event}

theorem onLine_append {first second : List Event} :
    OnLine server history line (first ++ second) line' ↔
      ∃ between, OnLine server history line first between ∧
        OnLine server (history ++ first) between second line' := by
  induction first generalizing history line with
  | nil =>
    rw [List.nil_append, List.append_nil]
    exact ⟨fun h => ⟨line, rfl, h⟩, by rintro ⟨_, rfl, h⟩; exact h⟩
  | cons e rest ih =>
    simp only [List.cons_append, OnLine, ih, List.append_assoc, List.nil_append]
    constructor
    · rintro ⟨hc, between, hfirst, hsecond⟩
      exact ⟨between, ⟨hc, hfirst⟩, hsecond⟩
    · rintro ⟨between, ⟨hc, hfirst⟩, hsecond⟩
      exact ⟨hc, between, hfirst, hsecond⟩

/-- Calls on the current connection that do not ask follow the line as it is. -/
theorem OnLine.of_forall (h : ∀ e ∈ events, e.connection = line.current ∧ e.call.asks = false) :
    OnLine server history line events line := by
  induction events generalizing history with
  | nil => rfl
  | cons e rest ih =>
    obtain ⟨⟨hc, hasks⟩, hrest⟩ := List.forall_mem_cons.1 h
    have hsame : line.after server history e = line := by simp [Line.after, finds, hasks]
    exact ⟨hc, hsame.symm ▸ ih hrest⟩

theorem Line.after_opened (server : Server) (history : List Event) (e : Event)
    (h : line.current < line.opened) :
    (line.after server history e).current < (line.after server history e).opened := by
  rw [Line.after]
  split
  · exact Nat.lt_succ_self _
  · exact h

theorem OnLine.opened (h : OnLine server history line events line')
    (hopened : line.current < line.opened) : line'.current < line'.opened := by
  induction events generalizing history line with
  | nil =>
    cases h
    exact hopened
  | cons e rest ih => exact ih h.2 (line.after_opened server history e hopened)

/-- Connections are numbered upwards, so one that was replaced does not come back. -/
theorem OnLine.current (h : OnLine server history line events line')
    (hopened : line.current < line.opened) :
    (lost server history events = false →
      line' = line ∧ ∀ e ∈ events, e.connection = line.current) ∧
    (lost server history events = true → line.current < line'.current) := by
  induction events generalizing history line with
  | nil =>
    cases h
    exact ⟨fun _ => ⟨rfl, List.forall_mem_nil _⟩, nofun⟩
  | cons e rest ih =>
    obtain ⟨hc, hrest⟩ := h
    cases hfinds : finds server history e with
    | false =>
      rw [show line.after server history e = line by simp [Line.after, hfinds]] at hrest
      obtain ⟨hkept, hlost⟩ := ih hrest hopened
      rw [lost, hfinds, Bool.false_or]
      refine ⟨fun h => ?_, hlost⟩
      obtain ⟨hline, hall⟩ := hkept h
      exact ⟨hline, List.forall_mem_cons.2 ⟨hc, hall⟩⟩
    | true =>
      rw [show line.after server history e = ⟨line.opened, line.opened + 1⟩ by
        simp [Line.after, hfinds]] at hrest
      obtain ⟨hkept, hlost⟩ := ih hrest (Nat.lt_succ_self _)
      rw [lost, hfinds, Bool.true_or]
      refine ⟨nofun, fun _ => ?_⟩
      cases hmore : lost server (history ++ [e]) rest with
      | false => exact (hkept hmore).1 ▸ hopened
      | true => exact Nat.lt_trans hopened (hlost hmore)

/-- Of calls that end in work on the current connection, all work is done on one connection exactly
when after the first of it no probe finds the connection dropped. -/
theorem OnLine.one_connection_iff {last : Event}
    (h : OnLine server history line (events ++ [last]) line') (hopened : line.current < line.opened)
    (hlast : last.call.works = true) (hcurrent : last.connection = line'.current) :
    ∃ before first after, events ++ [last] = before ++ first :: after ∧
      (∀ e ∈ before, e.call.works = false) ∧ first.call.works = true ∧
      ((∀ e ∈ after, e.call.works = true → e.connection = first.connection) ↔
        lost server (history ++ before ++ [first]) after = false) := by
  have hfound : ((events ++ [last]).find? (·.call.works)).isSome = true :=
    List.find?_isSome.2 ⟨last, List.mem_append_right _ (List.mem_singleton_self _), hlast⟩
  obtain ⟨first, hfirstFound⟩ := Option.isSome_iff_exists.1 hfound
  obtain ⟨hfirst, before, after, hsplit, hidle⟩ := List.find?_eq_some_iff_append.1 hfirstFound
  have hbefore : ∀ e ∈ before, e.call.works = false := fun e he => by simpa using hidle e he
  refine ⟨before, first, after, hsplit, hbefore, hfirst, ?_⟩
  rw [hsplit] at h
  obtain ⟨between, hstart, hconnection, hrest⟩ := onLine_append.1 h
  have hsame : between.after server (history ++ before) first = between := by
    simp [Line.after, finds, Call.asks_of_works hfirst]
  rw [hsame] at hrest
  obtain ⟨hkept, hlost⟩ := hrest.current (hstart.opened hopened)
  rw [hconnection]
  constructor
  · intro hall
    cases hdropped : lost server (history ++ before ++ [first]) after with
    | false => rfl
    | true =>
      -- The last call is on a later connection than the first one.
      have hless := hlost hdropped
      cases after with
      | nil => cases hdropped
      | cons e rest =>
        have hends : (e :: rest).getLast? = some last := by
          have hsame := congrArg List.getLast? hsplit
          rwa [List.getLast?_concat, List.getLast?_append, List.getLast?_cons_cons,
            Option.or_of_isSome (by simp), eq_comm] at hsame
        have hequal := hall last (List.mem_of_getLast? hends) hlast
        omega
  · exact fun hkeptAll e he _ => (hkept hkeptAll).2 e he

end Wire
end Querywright
