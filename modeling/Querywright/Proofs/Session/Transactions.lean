/-
  Calls on transactions, in any order, on any number of them, whatever statements fail.

  * `Transaction.Call.inPlace`: a call changes its transaction after its statement has run.
    `inPlace_eq`: it does what the call does that is given a transaction and hands one back.
  * `useOf` notes what a call does. `inPlace_eq_useOf`: a call that is not noted does the same.
  * `Use.Done`: a call is refused before anything is run, or its statement fails and nothing
    changes, or its statement runs and the transaction changes.
  * `Adapter.Quiet`: running a statement never fails as a call on a transaction does. Both adapters
    are so.
  * `transactions_match_statements`: a transaction is active exactly when one more BEGIN of its
    own has succeeded than COMMITs and ROLLBACKs.
-/
import Mathlib.Logic.Function.Basic
import Querywright.Proofs.Adapter.Failures
import Querywright.Proofs.Session.Block

namespace Querywright

open Adapter (Event Recorded)

variable {σ α : Type}

/-! ## Calls -/

namespace Control

/-- The text that is sent. -/
def text : Control → String
  | begin => "BEGIN"
  | commit => "COMMIT"
  | rollback => "ROLLBACK"

/-- Whether a transaction is active afterwards. -/
def opens : Control → Bool
  | begin => true
  | commit | rollback => false

/-- Why it is refused when it would change nothing. -/
def misuse : Control → TransactionFault
  | begin => .alreadyActive
  | commit => .nothingToCommit
  | rollback => .nothingToRollBack

/-- The call that is made on the adapter. -/
def call (c : Control) : Adapter.Call := .run (.plain c.text)

@[simp] theorem control?_call (c : Control) : c.call.control? = some c := by
  cases c <;> rfl

end Control

namespace Transaction

/-- A call on a transaction. A block is left with its fault, if it failed. -/
inductive Call where
  | begin
  | commit
  | rollback
  | enter
  | leave (raised : Option Fault)

namespace Call

/-- What is asked for. -/
def control : Call → Control
  | begin | enter => .begin
  | commit | leave none => .commit
  | rollback | leave (some _) => .rollback

/-- What is journaled before anything else. -/
def entries : Call → List Journal.Entry
  | leave (some e) => [rollingBack e]
  | _ => []

/-- The world after that. -/
def told (c : Call) (w : World σ) : World σ := { w with journal := w.journal ++ c.entries }

/-- The call, given a transaction. -/
def on (s : Session σ) (t : Transaction) : Call → Action σ Transaction
  | begin | enter => Transaction.begin s t
  | commit => Transaction.commit s t
  | rollback => Transaction.rollback s t
  | leave raised => Transaction.leave s t raised

theorem forM_entries (c : Call) (w : World σ) :
    c.entries.forM Action.log w = (.ok (), c.told w) := by
  rcases c with _ | _ | _ | _ | ⟨_ | e⟩
  case leave.some => rfl
  all_goals exact congrArg (Prod.mk _) (congrArg (fun l => { w with journal := l })
    (List.append_nil w.journal).symm)

/-- Every call has the same shape: what it asks for is refused, or its statement is run. -/
theorem on_eq (s : Session σ) (t : Transaction) (c : Call) :
    c.on s t = do
      c.entries.forM Action.log
      if t.active = c.control.opens then throw (.transaction c.control.misuse)
      else do
        Transaction.control s c.control.text
        return { active := c.control.opens } := by
  obtain ⟨active⟩ := t
  rcases c with _ | _ | _ | _ | ⟨_ | e⟩ <;> cases active <;> rfl

end Call
end Transaction

/-! ## Transactions in place -/

/-- Transactions, by number, beside the state of a peer. -/
structure Pool (σ : Type) where
  transactions : Nat → Transaction
  state : σ

namespace World

/-- The world without the transactions. -/
def unpooled (w : World (Pool σ)) : World σ where
  clock := w.clock
  journal := w.journal
  reports := w.reports
  peer := w.peer.state

/-- The world with transactions. -/
def pooled (ts : Nat → Transaction) (w : World σ) : World (Pool σ) where
  clock := w.clock
  journal := w.journal
  reports := w.reports
  peer := ⟨ts, w.peer⟩

@[simp] theorem unpooled_pooled (ts : Nat → Transaction) (w : World σ) :
    (w.pooled ts).unpooled = w := rfl

end World

namespace Pool

/-- An action that no transaction takes notice of. -/
def keeping (a : Action σ α) : Action (Pool σ) α := fun w =>
  match a w.unpooled with
  | (r, after) => (r, after.pooled w.peer.transactions)

/-- Change a transaction. -/
def set (i : Nat) (active : Bool) : Action (Pool σ) Unit :=
  Action.setPeer fun p => { p with transactions := Function.update p.transactions i { active } }

theorem keeping_eq {a : Action σ α} {ts : Nat → Transaction} {w w' : World σ} {r : Except Fault α}
    (h : a w = (r, w')) : keeping a (w.pooled ts) = (r, w'.pooled ts) := by
  rw [keeping, World.unpooled_pooled, h]
  rfl

end Pool

namespace Transaction

namespace Call

/-- The call in place: when its statement has run, and not before, the transaction changes. -/
def inPlace (s : Session σ) (i : Nat) (c : Call) : Action (Pool σ) Unit := do
  c.entries.forM Action.log
  let pool ← Action.peer
  if (pool.transactions i).active = c.control.opens then throw (.transaction c.control.misuse)
  else do
    Pool.keeping (Transaction.control s c.control.text)
    Pool.set i c.control.opens

variable {s : Session σ} {i : Nat} {c : Call} {ts : Nat → Transaction} {w w' : World σ}

theorem inPlace_told : c.inPlace s i (w.pooled ts)
    = (if (ts i).active = c.control.opens then throw (.transaction c.control.misuse)
      else do
        Pool.keeping (Transaction.control s c.control.text)
        Pool.set i c.control.opens : Action (Pool σ) Unit) ((c.told w).pooled ts) :=
  (Action.bind_of_ok (c.forM_entries (w.pooled ts))).trans (Action.bind_of_ok rfl)

/-- A call out of turn is refused. -/
theorem inPlace_of_misused (h : (ts i).active = c.control.opens) :
    c.inPlace s i (w.pooled ts)
      = (.error (.transaction c.control.misuse), (c.told w).pooled ts) := by
  rw [inPlace_told, if_pos h]
  rfl

theorem inPlace_of_failed (h : (ts i).active ≠ c.control.opens) {e : Fault}
    (hcontrol : Transaction.control s c.control.text (c.told w) = (.error e, w')) :
    c.inPlace s i (w.pooled ts) = (.error e, w'.pooled ts) := by
  rw [inPlace_told, if_neg h]
  exact Action.bind_of_error (Pool.keeping_eq hcontrol)

theorem inPlace_of_ran (h : (ts i).active ≠ c.control.opens)
    (hcontrol : Transaction.control s c.control.text (c.told w) = (.ok (), w')) :
    c.inPlace s i (w.pooled ts)
      = (.ok (), w'.pooled (Function.update ts i { active := c.control.opens })) := by
  rw [inPlace_told, if_neg h]
  exact Action.bind_of_ok (Pool.keeping_eq hcontrol)

/-- A call in place does what the call does that is given the transaction: the transaction that
is handed back is the one that is there afterwards, and without one it stays as it was. -/
theorem inPlace_eq (s : Session σ) (i : Nat) (c : Call) (ts : Nat → Transaction) (w : World σ) :
    c.inPlace s i (w.pooled ts) = match c.on s (ts i) w with
      | (.ok t, w') => (.ok (), w'.pooled (Function.update ts i t))
      | (.error e, w') => (.error e, w'.pooled ts) := by
  rw [on_eq, Action.bind_of_ok (c.forM_entries w)]
  by_cases h : (ts i).active = c.control.opens
  · rw [inPlace_of_misused h, if_pos h]
    rfl
  · rw [if_neg h]
    rcases hcontrol : Transaction.control s c.control.text (c.told w) with ⟨_ | u, w'⟩
    · rw [inPlace_of_failed h hcontrol, Action.bind_of_error hcontrol]
    · rw [inPlace_of_ran h hcontrol, Action.bind_of_ok hcontrol]
      rfl

end Call

/-! ## What calls do -/

/-- A call that was made: on which transaction, how the transactions were before and after it,
the calls that it made on the adapter, and its outcome. -/
structure Use where
  place : Nat
  call : Call
  before : Nat → Transaction
  events : List Event
  outcome : Except Fault Unit
  after : Nat → Transaction

/-- Make a call. -/
def useOf (s : Session σ) (x : Nat × Call) (ts : Nat → Transaction) (w : World σ) :
    Use × World σ :=
  match x.2.inPlace s.recording x.1 ((w.recorded []).pooled ts) with
  | (r, w') => (⟨x.1, x.2, ts, w'.unpooled.events, r, w'.peer.transactions⟩, w'.unpooled.plain)

/-- Make calls one after the other. -/
def uses (s : Session σ) : List (Nat × Call) → (Nat → Transaction) → World σ → List Use
  | [], _, _ => []
  | x :: rest, ts, w =>
    let made := useOf s x ts w
    made.1 :: uses s rest made.1.after made.2

/-- The transactions after calls. -/
def left : (Nat → Transaction) → List Use → Nat → Transaction
  | ts, [] => ts
  | _, u :: us => left u.after us

/-- What a call does: it is refused before anything is run, its statement fails and nothing
changes, or its statement runs and its transaction changes. -/
inductive Use.Done : Use → Prop where
  | refused {i : Nat} {c : Call} {ts : Nat → Transaction}
      (h : (ts i).active = c.control.opens) :
      Done ⟨i, c, ts, [], .error (.transaction c.control.misuse), ts⟩
  | failed {i : Nat} {c : Call} {ts : Nat → Transaction} {e : Fault}
      (h : (ts i).active ≠ c.control.opens) :
      Done ⟨i, c, ts, [⟨c.control.call, .error e⟩], .error e, ts⟩
  | ran {i : Nat} {c : Call} {ts : Nat → Transaction} {x : Result}
      (h : (ts i).active ≠ c.control.opens) :
      Done ⟨i, c, ts, [⟨c.control.call, .ok (.result x)⟩], .ok (),
        Function.update ts i { active := c.control.opens }⟩

variable {s : Session σ} {x : Nat × Call} {ts ts' : Nat → Transaction} {w : World σ}

theorem useOf_eq {r : Except Fault Unit} {w' : World (Recorded σ)}
    (h : x.2.inPlace s.recording x.1 ((w.recorded []).pooled ts) = (r, w'.pooled ts')) :
    useOf s x ts w = (⟨x.1, x.2, ts, w'.events, r, ts'⟩, w'.plain) := by
  rw [useOf, h]
  rfl

theorem shadows_on (s : Session σ) (t : Transaction) (c : Call) :
    Shadows s.adapter (c.on s.recording t) (c.on s t) := by
  rcases c with _ | _ | _ | _ | ⟨_ | e⟩
  case begin | enter => exact shadows_begin s t
  case commit | leave.none => exact shadows_commit s t
  case rollback => exact shadows_rollback s t
  case leave.some => exact (shadows_log _).bind fun _ => shadows_rollback s t

/-- The call that is given the transaction, with its calls on the adapter noted. -/
theorem useOf_on (s : Session σ) (x : Nat × Call) (ts : Nat → Transaction) (w : World σ) :
    useOf s x ts w = match x.2.on s.recording (ts x.1) (w.recorded []) with
      | (.ok t, w') => (⟨x.1, x.2, ts, w'.events, .ok (), Function.update ts x.1 t⟩, w'.plain)
      | (.error e, w') => (⟨x.1, x.2, ts, w'.events, .error e, ts⟩, w'.plain) := by
  have hnoted := Call.inPlace_eq s.recording x.1 x.2 ts (w.recorded [])
  rcases hon : x.2.on s.recording (ts x.1) (w.recorded []) with ⟨_ | t, w'⟩
  all_goals
    rw [hon] at hnoted
    exact useOf_eq hnoted

/-- What a call does when its calls on the adapter are noted is what it does. -/
theorem inPlace_eq_useOf (s : Session σ) (x : Nat × Call) (ts : Nat → Transaction) (w : World σ) :
    x.2.inPlace s x.1 (w.pooled ts)
      = ((useOf s x ts w).1.outcome, (useOf s x ts w).2.pooled (useOf s x ts w).1.after) := by
  rw [Call.inPlace_eq, (shadows_on s (ts x.1) x.2).eq w, useOf_on]
  rcases x.2.on s.recording (ts x.1) (w.recorded []) with ⟨_ | t, w'⟩ <;> rfl

/-- The calls that are noted are answered by the adapter. -/
theorem useOf_history (s : Session σ) (x : Nat × Call) (ts : Nat → Transaction) (w : World σ) :
    s.adapter.History w.peer (useOf s x ts w).1.events (x.2.on s (ts x.1) w).2.peer := by
  have hhistory := (shadows_on s (ts x.1) x.2).history w
  rw [useOf_on]
  rcases hon : x.2.on s.recording (ts x.1) (w.recorded []) with ⟨_ | t, w'⟩
  all_goals
    rw [hon] at hhistory
    exact hhistory

theorem useOf_done (s : Session σ) (x : Nat × Call) (ts : Nat → Transaction) (w : World σ) :
    (useOf s x ts w).1.Done ∧ (useOf s x ts w).1.before = ts := by
  obtain ⟨i, c⟩ := x
  by_cases h : (ts i).active = c.control.opens
  · rw [useOf_eq (Call.inPlace_of_misused h)]
    exact ⟨.refused h, rfl⟩
  · rcases hcontrol : Transaction.control s.recording c.control.text (c.told (w.recorded []))
      with ⟨r, w'⟩
    obtain ⟨answer, hr, hevents⟩ := control_recording hcontrol
    have hmade : w'.events = [⟨c.control.call, answer.map .result⟩] := hevents
    cases answer with
    | error e =>
      cases hr
      rw [useOf_eq (Call.inPlace_of_failed h hcontrol), hmade]
      exact ⟨.failed h, rfl⟩
    | ok x =>
      cases hr
      have hran := Call.inPlace_of_ran h hcontrol
      rw [useOf_eq hran, hmade]
      exact ⟨.ran h, rfl⟩

/-- Calls that are made one after the other. -/
inductive Used : (Nat → Transaction) → List Use → Prop where
  | done (ts : Nat → Transaction) : Used ts []
  | next {u : Use} {us : List Use} (h : u.Done) (hrest : Used u.after us) :
      Used u.before (u :: us)

theorem uses_used (s : Session σ) (calls : List (Nat × Call)) (ts : Nat → Transaction)
    (w : World σ) : Used ts (uses s calls ts w) := by
  induction calls generalizing ts w with
  | nil => exact .done ts
  | cons x rest ih =>
    obtain ⟨hdone, hbefore⟩ := useOf_done s x ts w
    have hused := Used.next hdone (ih _ (useOf s x ts w).2)
    rwa [hbefore] at hused

theorem mem_uses {calls : List (Nat × Call)} {ts : Nat → Transaction} {w : World σ} {u : Use}
    (hu : u ∈ uses s calls ts w) : ∃ x ts w, u = (useOf s x ts w).1 := by
  induction calls generalizing ts w with
  | nil => cases hu
  | cons x rest ih =>
    rcases List.mem_cons.1 hu with rfl | hrest
    · exact ⟨x, ts, w, rfl⟩
    · exact ih hrest

/-! ## What a call leaves -/

namespace Use

/-- A call out of turn: a begin of an active transaction, or an end of one that is not active. -/
def Misused (u : Use) : Prop := (u.before u.place).active = u.call.control.opens

/-- The transaction control that succeeded. -/
def accepted (u : Use) : List Control := u.events.filterMap Event.control?

theorem accepted_ran {i : Nat} {c : Call} {ts after : Nat → Transaction} {x : Result} :
    accepted ⟨i, c, ts, [⟨c.control.call, .ok (.result x)⟩], .ok (), after⟩ = [c.control] := by
  simp [accepted, Event.control?]

variable {u : Use}

theorem Done.misused_iff (h : u.Done) :
    u.Misused ↔ u.outcome = .error (.transaction u.call.control.misuse) ∧ u.events = [] := by
  cases h with
  | refused h => exact iff_of_true h ⟨rfl, rfl⟩
  | failed h => exact iff_of_false h (by rintro ⟨-, ⟨⟩⟩)
  | ran h => exact iff_of_false h (by rintro ⟨-, ⟨⟩⟩)

/-- A call in turn makes one call on the adapter, and succeeds as that one does. -/
theorem Done.event_of_turn (h : u.Done) (hturn : ¬u.Misused) :
    ∃ answer, u.events = [⟨u.call.control.call, answer⟩] ∧
      u.outcome = answer.map fun _ => () := by
  cases h with
  | refused h => exact absurd h hturn
  | failed => exact ⟨_, rfl, rfl⟩
  | ran => exact ⟨_, rfl, rfl⟩

theorem Done.after_eq (h : u.Done) :
    u.after = if u.outcome.isOk then
        Function.update u.before u.place { active := u.call.control.opens }
      else u.before := by
  cases h <;> rfl

/-- The calls that leave a block of an active transaction. -/
theorem Done.event_of_leave (h : u.Done) {raised : Option Fault} (hcall : u.call = .leave raised)
    (hactive : (u.before u.place).active = true) (c : Control) :
    (∃ answer, u.events = [⟨c.call, answer⟩]) ↔ c = (Call.leave raised).control := by
  have hturn : ¬u.Misused := by
    rw [Misused, hactive, hcall]
    cases raised <;> simp [Call.control, Control.opens]
  obtain ⟨answer, hevents, -⟩ := h.event_of_turn hturn
  rw [hevents, hcall]
  constructor
  · rintro ⟨_, heq⟩
    have hsame := congrArg (List.map fun e => e.call.control?) heq
    simpa using hsame.symm
  · rintro rfl
    exact ⟨answer, rfl⟩

/-- What a transaction has been sent, and whether it is active, change together. -/
theorem Done.balance (h : u.Done) (i : Nat) :
    (if u.place = i then u.accepted.count .begin else 0) + (u.before i).active.toNat
      = (if u.place = i then u.accepted.count .commit + u.accepted.count .rollback else 0)
        + (u.after i).active.toNat := by
  cases h with
  | refused h => simp [accepted]
  | failed h => simp [accepted, Event.control?]
  | @ran j c ts x h =>
    by_cases hj : j = i
    · subst hj
      revert h
      rw [accepted_ran]
      cases c.control <;> simp [Control.opens]
    · simp [hj, Function.update_of_ne (Ne.symm hj)]

end Use

/-- The transaction control that succeeded, in order. -/
def accepted (us : List Use) : List Control := us.flatMap Use.accepted

@[simp] theorem accepted_cons (u : Use) (us : List Use) :
    accepted (u :: us) = u.accepted ++ accepted us := List.flatMap_cons

/-- What one of the transactions has been sent with success. -/
def acceptedOf (i : Nat) (us : List Use) : List Control := accepted (us.filter (·.place == i))

theorem count_acceptedOf_cons (c : Control) (i : Nat) (u : Use) (us : List Use) :
    (acceptedOf i (u :: us)).count c
      = (if u.place = i then u.accepted.count c else 0) + (acceptedOf i us).count c := by
  by_cases h : u.place = i <;> simp [acceptedOf, accepted, h]

/-- Beginnings and ends of a transaction balance up to whether it is active. -/
theorem Used.balance {ts : Nat → Transaction} {us : List Use} (h : Used ts us) (i : Nat) :
    (acceptedOf i us).count .begin + (ts i).active.toNat
      = (acceptedOf i us).count .commit + (acceptedOf i us).count .rollback
        + (left ts us i).active.toNat := by
  induction h with
  | done ts => rfl
  | @next u us hdone hrest ih =>
    have hstep := hdone.balance i
    simp only [count_acceptedOf_cons, left]
    split at hstep <;> simp only [*, if_true, if_false] <;> omega

end Transaction

namespace Adapter

/-- An adapter whose runs do not fail for want of a transaction. -/
def Quiet (a : Adapter σ) : Prop :=
  ∀ statement w cause, (a.run statement w).1 ≠ .error (.transaction cause)

theorem quiet_of_surfacing {a : Adapter Wire} {server : Wire.Server}
    {reworded : Wire.Call → DriverFault → Bool} {fails : Statement → Cursor → Option DriverFault}
    (h : ∀ s, Surfacing server reworded (fails s) (Operation.perform a (.run s))) : a.Quiet := by
  intro s w cause hrun
  obtain ⟨_, -, hsurfaces⟩ := h s w _ _ rfl
  refine hsurfaces.ne_transaction cause ?_
  rcases ha : a.run s w with ⟨r, w'⟩
  rw [ha] at hrun
  cases hrun
  exact congrArg Prod.fst (Action.bind_of_error ha)

variable {server : Wire.Server} {installed : Bool} {slow : Int}

theorem sqlite_quiet : (Adapter.sqlite server slow).Quiet :=
  quiet_of_surfacing fun s => (Operation.run s).sqlite_surfacing

theorem postgres_quiet : (Adapter.postgres server installed slow).Quiet :=
  quiet_of_surfacing fun s => (Operation.run s).postgres_surfacing

end Adapter

namespace Transaction

variable {s : Session σ}

/-- Over such an adapter a call in turn is not refused. -/
theorem useOf_turn_of_quiet (hquiet : s.adapter.Quiet) {x : Nat × Call} {ts : Nat → Transaction}
    {w : World σ} (hturn : ¬(useOf s x ts w).1.Misused) (cause : TransactionFault) :
    (useOf s x ts w).1.outcome ≠ .error (.transaction cause) := by
  intro hrefused
  obtain ⟨answer, hevents, houtcome⟩ := (useOf_done s x ts w).1.event_of_turn hturn
  obtain ⟨_, hanswers, -⟩ := hevents ▸ useOf_history s x ts w
  obtain ⟨w₁, r, w₂, hrun, -, -, rfl⟩ := hanswers.run
  cases r with
  | ok result => cases houtcome.symm.trans hrefused
  | error e =>
    cases houtcome.symm.trans hrefused
    exact hquiet _ w₁ cause (congrArg Prod.fst hrun)

/-- A transaction follows the statements that succeeded. It is active exactly when one more BEGIN
of its own has succeeded than COMMITs and ROLLBACKs, and no other difference occurs. A call out of
turn is refused before anything is run, and no other call is, if the adapter does not fail so by
itself. Any other call runs the one statement that it asks for and ends as that does; only when it
has succeeded the transaction changes. A block of an active transaction that is left is committed
exactly when it has not failed, and rolled back exactly when it has. -/
theorem transactions_match_statements (s : Session σ) (calls : List (Nat × Call)) (w : World σ) :
    let us := uses s calls (fun _ => {}) w
    (∀ i,
      let begun := (acceptedOf i us).count .begin
      let ended := (acceptedOf i us).count .commit + (acceptedOf i us).count .rollback
      (begun = ended ∨ begun = ended + 1) ∧
        ((left (fun _ => {}) us i).active = true ↔ begun = ended + 1)) ∧
    ∀ u ∈ us,
      (u.Misused ↔ u.outcome = .error (.transaction u.call.control.misuse) ∧ u.events = []) ∧
      (s.adapter.Quiet → (u.Misused ↔ ∃ cause, u.outcome = .error (.transaction cause))) ∧
      (¬u.Misused → ∃ answer, u.events = [⟨u.call.control.call, answer⟩] ∧
        u.outcome = answer.map fun _ => ()) ∧
      (u.after = if u.outcome.isOk then
          Function.update u.before u.place { active := u.call.control.opens }
        else u.before) ∧
      ∀ raised, u.call = .leave raised → (u.before u.place).active = true →
        ((∃ answer, u.events = [⟨Control.commit.call, answer⟩]) ↔ raised = none) ∧
        ((∃ answer, u.events = [⟨Control.rollback.call, answer⟩]) ↔ raised ≠ none) := by
  refine ⟨fun i => ?_, fun u hu => ?_⟩
  · have hbalance := (uses_used s calls (fun _ => {}) w).balance i
    rw [Bool.toNat_false, Nat.add_zero] at hbalance
    cases hactive : (left (fun _ => {}) (uses s calls (fun _ => {}) w) i).active <;>
      rw [hactive] at hbalance <;> simp only [Bool.toNat_true, Bool.toNat_false] at hbalance <;>
      simp <;> omega
  · obtain ⟨x, ts, w₁, rfl⟩ := mem_uses hu
    have hdone := (useOf_done s x ts w₁).1
    refine ⟨hdone.misused_iff, fun hquiet => ⟨fun h => ?_, fun ⟨cause, h⟩ => ?_⟩,
      hdone.event_of_turn, hdone.after_eq, fun raised hcall hactive => ⟨?_, ?_⟩⟩
    · exact ⟨_, (hdone.misused_iff.1 h).1⟩
    · by_contra hturn
      exact useOf_turn_of_quiet hquiet hturn cause h
    · rw [hdone.event_of_leave hcall hactive]
      cases raised <;> simp [Call.control]
    · rw [hdone.event_of_leave hcall hactive]
      cases raised <;> simp [Call.control]

end Transaction
end Querywright
