/-
  Transaction control: the calls that begin and end transactions, made on the adapter or run as
  statements of their own, and what a record of calls leaves behind.

  * `lastControl?`: the last control call that succeeded. `leavesOpen`: it is a begin.
  * `Clean`: every call succeeded, and no transaction is left open.
  * `EndFailed`: the last call is a commit or a rollback, and it failed.
  * `Transacted.endFailed`: statements inside a transaction leave it open only if its end failed.
-/
import Querywright.Proofs.Session.Batch

namespace Querywright

open Adapter (Answer Call Event)

/-- What a call does to transactions. -/
inductive Control where
  | begin
  | commit
  | rollback
  deriving DecidableEq, Repr

namespace Control

/-- The statement of transaction control that a text is. -/
def ofText? (sql : String) : Option Control :=
  [("BEGIN", begin), ("COMMIT", commit), ("ROLLBACK", rollback)].lookup sql

/-- The texts of transaction control. -/
theorem ofText?_eq_none {sql : String} :
    ofText? sql = none ↔ sql ≠ "BEGIN" ∧ sql ≠ "COMMIT" ∧ sql ≠ "ROLLBACK" := by
  simp [ofText?, List.lookup_eq_none_iff]

/-- A long text is no transaction control. -/
theorem ofText?_of_length {sql : String} (h : 8 < sql.length) : ofText? sql = none := by
  refine ofText?_eq_none.2 ⟨?_, ?_, ?_⟩
  all_goals
    rintro rfl
    exact absurd h (by decide)

end Control

namespace Adapter

/-- The transaction control of a call. -/
def Call.control? : Call → Option Control
  | .begin => some .begin
  | .commit => some .commit
  | .rollback => some .rollback
  | .run s => s.query.asText?.bind Control.ofText?
  | _ => none

theorem Call.control?_of_length {s : Statement} {sql : String} (hs : s.query = .text sql)
    (h : 8 < sql.length) : (Call.run s).control? = none := by
  rw [Call.control?, hs]
  exact Control.ofText?_of_length h

/-- The transaction control of a call that succeeded. -/
def Event.control? (e : Event) : Option Control :=
  if e.succeeded then e.call.control? else none

end Adapter

/-- The last transaction control that succeeded. -/
def lastControl? (events : List Event) : Option Control :=
  (events.filterMap Event.control?).getLast?

/-- Whether the calls leave a transaction open. -/
def leavesOpen (events : List Event) : Bool := lastControl? events == some .begin

/-- Calls that control no transaction. -/
theorem lastControl?_of_uncontrolled {events : List Event}
    (h : ∀ e ∈ events, e.call.control? = none) : lastControl? events = none := by
  have hnone : events.filterMap Event.control? = [] := by
    refine List.filterMap_eq_nil_iff.2 fun e he => ?_
    rw [Event.control?, h e he, ite_self]
  rw [lastControl?, hnone, List.getLast?_nil]

theorem lastControl?_append (before after : List Event) :
    lastControl? (before ++ after) = (lastControl? after).or (lastControl? before) := by
  rw [lastControl?, List.filterMap_append, List.getLast?_append]
  rfl

@[simp] theorem lastControl?_snoc_ok (events : List Event) (call : Call) (answer : Answer) :
    lastControl? (events ++ [⟨call, .ok answer⟩]) = call.control?.or (lastControl? events) := by
  rw [lastControl?_append]
  cases h : call.control? <;> simp [lastControl?, Event.control?, h]

@[simp] theorem lastControl?_snoc_error (events : List Event) (call : Call) (e : Fault) :
    lastControl? (events ++ [⟨call, .error e⟩]) = lastControl? events := by
  rw [lastControl?_append]
  simp [lastControl?, Event.control?]

/-- When a transaction has begun and none is left open, the last one was ended. -/
theorem ended_of_begun {events : List Event} (hbegun : ∃ e ∈ events, e.control? = some .begin)
    (hclosed : leavesOpen events = false) :
    lastControl? events = some .commit ∨ lastControl? events = some .rollback := by
  obtain ⟨e, he, hbegin⟩ := hbegun
  have hmem : Control.begin ∈ events.filterMap Event.control? :=
    List.mem_filterMap.2 ⟨e, he, hbegin⟩
  cases hlast : lastControl? events with
  | none => exact absurd (List.getLast?_eq_none_iff.1 hlast) (List.ne_nil_of_mem hmem)
  | some c =>
    cases c with
    | begin => simp [leavesOpen, hlast] at hclosed
    | commit => exact .inl rfl
    | rollback => exact .inr rfl

theorem leavesOpen_append {first events : List Event} (h : leavesOpen first = false) :
    leavesOpen (first ++ events) = leavesOpen events := by
  rw [leavesOpen, leavesOpen, lastControl?_append]
  cases hlast : lastControl? events with
  | none => simpa [leavesOpen] using h
  | some c => rfl

/-! ## Clean ends and failed ones -/

/-- Every call succeeded, and no transaction is left open. -/
structure Clean (events : List Event) : Prop where
  succeeded : ∀ e ∈ events, e.succeeded = true
  closed : leavesOpen events = false

theorem Clean.of_uncontrolled {events : List Event} (hsucceeded : ∀ e ∈ events, e.succeeded = true)
    (h : ∀ e ∈ events, e.call.control? = none) : Clean events where
  succeeded := hsucceeded
  closed := by
    rw [leavesOpen, lastControl?_of_uncontrolled h]
    rfl

theorem Clean.append {first events : List Event} (h : Clean first) (hnext : Clean events) :
    Clean (first ++ events) where
  succeeded := List.forall_mem_append.2 ⟨h.succeeded, hnext.succeeded⟩
  closed := (leavesOpen_append h.closed).trans hnext.closed

/-- The last call is a commit or a rollback, and it failed. -/
def EndFailed (events : List Event) : Prop :=
  ∃ call e, events.getLast? = some ⟨call, .error e⟩ ∧
    (call.control? = some .commit ∨ call.control? = some .rollback)

theorem endFailed_snoc_ok (events : List Event) (call : Call) (answer : Answer) :
    ¬EndFailed (events ++ [⟨call, .ok answer⟩]) := by
  rintro ⟨_, _, hlast, -⟩
  rw [List.getLast?_concat] at hlast
  cases hlast

theorem endFailed_snoc_error (events : List Event) (call : Call) (e : Fault) :
    EndFailed (events ++ [⟨call, .error e⟩]) ↔
      call.control? = some .commit ∨ call.control? = some .rollback := by
  constructor
  · rintro ⟨_, _, hlast, hcall⟩
    rw [List.getLast?_concat] at hlast
    cases hlast
    exact hcall
  · intro hcall
    exact ⟨call, e, List.getLast?_concat, hcall⟩

/-- After a clean start only the rest matters. -/
theorem Clean.endFailed_append {first events : List Event} (h : Clean first) :
    EndFailed (first ++ events) ↔ EndFailed events := by
  rw [EndFailed, EndFailed, List.getLast?_append]
  cases hlast : events.getLast? with
  | some e => rfl
  | none =>
    constructor
    · rintro ⟨call, e, hfirst, -⟩
      exact absurd (h.succeeded _ (List.mem_of_getLast? hfirst)) Bool.false_ne_true
    · rintro ⟨call, e, ⟨⟩, -⟩

/-! ## Statements inside a transaction -/

/-- The calls control transactions as their names say. -/
structure Brackets.Control (b : Brackets) : Prop where
  begin : b.begin.control? = some .begin
  commit : b.commit.control? = some .commit
  rollback : b.rollback.control? = some .rollback

theorem Brackets.own_control : Brackets.own.Control := ⟨rfl, rfl, rfl⟩

namespace Transacted

variable {b : Brackets} {statements : List Statement} {events : List Event}

/-- A transaction that has begun is open while statements without transaction control run. -/
theorem leavesOpen_ran (hb : b.Control) {begun : Answer} {ran : List Ran}
    (h : ∀ p ∈ ran, (Call.run p.1).control? = none) :
    leavesOpen (⟨b.begin, .ok begun⟩ :: ran.map Ran.event) = true := by
  have hran : lastControl? (ran.map Ran.event) = none :=
    lastControl?_of_uncontrolled (List.forall_mem_map.2 h)
  have hbegun : lastControl? [⟨b.begin, .ok begun⟩] = some .begin := by
    rw [← List.nil_append [_], lastControl?_snoc_ok, hb.begin]
    rfl
  rw [leavesOpen, ← List.singleton_append, lastControl?_append, hran, hbegun]
  rfl

theorem clean (hb : b.Control) {results : List Result}
    (h : Transacted b statements events (.ok results)) : Clean events := by
  refine ⟨h.ok_iff.1 ⟨results, rfl⟩, ?_⟩
  generalize hr : Except.ok results = r at h
  cases h with
  | notBegun e => cases hr
  | undone begun ran failing rest e rollback => cases hr
  | ended begun ran commit =>
    cases commit with
    | error e => cases hr
    | ok answer =>
      rw [leavesOpen, lastControl?_snoc_ok, hb.commit]
      rfl

/-- What is left open has an end that failed. -/
theorem endFailed (hb : b.Control) {r : Except Fault (List Result)}
    (h : Transacted b statements events r) (hopen : leavesOpen events = true) :
    EndFailed events := by
  cases h with
  | notBegun e =>
    rw [← List.nil_append [_], leavesOpen, lastControl?_snoc_error] at hopen
    cases hopen
  | undone begun ran failing rest e rollback =>
    rw [List.append_cons] at hopen ⊢
    cases rollback with
    | ok answer =>
      rw [leavesOpen, lastControl?_snoc_ok, hb.rollback] at hopen
      cases hopen
    | error later => exact (endFailed_snoc_error _ _ _).2 (.inr hb.rollback)
  | ended begun ran commit =>
    cases commit with
    | ok answer =>
      rw [leavesOpen, lastControl?_snoc_ok, hb.commit] at hopen
      cases hopen
    | error e => exact (endFailed_snoc_error _ _ _).2 (.inl hb.commit)

/-- A transaction whose end failed is left open, if the statements do not end it themselves. -/
theorem leavesOpen_of_endFailed (hb : b.Control)
    (hplain : ∀ s ∈ statements, (Call.run s).control? = none) {r : Except Fault (List Result)}
    (h : Transacted b statements events r) (hend : EndFailed events) :
    leavesOpen events = true := by
  cases h with
  | notBegun e =>
    rw [← List.nil_append [_], endFailed_snoc_error, hb.begin] at hend
    simp at hend
  | undone begun ran failing rest e rollback =>
    rw [List.append_cons] at hend ⊢
    cases rollback with
    | ok answer => exact absurd hend (endFailed_snoc_ok _ _ _)
    | error later =>
      rw [leavesOpen, lastControl?_snoc_error, lastControl?_snoc_error]
      exact leavesOpen_ran hb fun p hp =>
        hplain p.1 (List.mem_append_left _ (List.mem_map_of_mem hp))
  | ended begun ran commit =>
    cases commit with
    | ok answer => exact absurd hend (endFailed_snoc_ok _ _ _)
    | error e =>
      rw [leavesOpen, lastControl?_snoc_error]
      exact leavesOpen_ran hb fun p hp => hplain p.1 (List.mem_map_of_mem hp)

end Transacted

end Querywright
