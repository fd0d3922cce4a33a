/-
  Transactions that are left open: by a batch, or by applying migrations.

  * `transactions_end`: a transaction that has begun is ended, unless the call that was to end it
    failed.
  * `leavesOpen_iff_endFailed`: when that call has failed, nothing else ends the transaction.
-/
import Querywright.Adapter.Sqlite
import Querywright.Proofs.Migration.Applying

namespace Querywright

open Adapter (Call Event)

variable {σ : Type} {m : Migrations} {events : List Event}

namespace Migrations

/-- Scripts without statements that control transactions. -/
def Uncontrolled (m : Migrations) : Prop :=
  ∀ x ∈ m.items, ∀ sql ∈ Script.split x.sql, Control.ofText? sql = none

theorem Uncontrolled.statements (h : m.Uncontrolled) {x : Migration} (hx : x ∈ m.items) :
    ∀ s ∈ m.statements x, (Call.run s).control? = none := by
  rw [Migrations.statements]
  refine List.forall_mem_append.2 ⟨List.forall_mem_map.2 (h x hx), ?_⟩
  exact List.forall_mem_singleton.2 (m.recording_uncontrolled x.name)

namespace Applied

theorem endFailed {xs : List Migration} {r : Except Fault Unit} (h : Applied m xs events r)
    (hopen : leavesOpen events = true) : EndFailed events := by
  induction h with
  | done => cases hopen
  | stopped h => exact h.endFailed Brackets.sent_control hopen
  | next h hrest ih =>
    have hclean := h.clean Brackets.sent_control
    rw [leavesOpen_append hclean.closed] at hopen
    exact hclean.endFailed_append.2 (ih hopen)

theorem leavesOpen_of_endFailed (hplain : m.Uncontrolled) {xs : List Migration}
    (hxs : ∀ x ∈ xs, x ∈ m.items) {r : Except Fault Unit} (h : Applied m xs events r)
    (hend : EndFailed events) : leavesOpen events = true := by
  induction h with
  | done => obtain ⟨_, _, ⟨⟩, -⟩ := hend
  | stopped h =>
    exact h.leavesOpen_of_endFailed Brackets.sent_control
      (hplain.statements (hxs _ List.mem_cons_self)) hend
  | next h hrest ih =>
    have hclean := h.clean Brackets.sent_control
    rw [leavesOpen_append hclean.closed]
    exact ih (List.forall_mem_cons.1 hxs).2 (hclean.endFailed_append.1 hend)

end Applied

namespace ApplyRun

variable {d : Dialect} {r : Except Fault (List Migration)}

theorem endFailed (h : ApplyRun m d events r) (hopen : leavesOpen events = true) :
    EndFailed events := by
  cases h with
  | unnamed h e => cases hopen
  | unread h =>
    rw [leavesOpen, lastControl?_of_uncontrolled h.uncontrolled] at hopen
    cases hopen
  | applied h happlied =>
    rw [leavesOpen_append h.clean.closed] at hopen
    exact h.clean.endFailed_append.2 (happlied.endFailed hopen)

theorem leavesOpen_of_endFailed (hplain : m.Uncontrolled) (h : ApplyRun m d events r)
    (hend : EndFailed events) : leavesOpen events = true := by
  cases h with
  | unnamed h e => obtain ⟨_, _, ⟨⟩, -⟩ := hend
  | unread h =>
    obtain ⟨call, e, hlast, hcall⟩ := hend
    have hnone : call.control? = none := h.uncontrolled _ (List.mem_of_getLast? hlast)
    simp [hnone] at hcall
  | @applied _ _ names _ h happlied =>
    have hitems : ∀ x ∈ m.unrecorded names, x ∈ m.items := fun _ => List.mem_of_mem_filter
    rw [leavesOpen_append h.clean.closed]
    exact happlied.leavesOpen_of_endFailed hplain hitems (h.clean.endFailed_append.1 hend)

end ApplyRun

end Migrations

/-! ## Batches and migrations -/

theorem Session.batch_endFailed (s : Session σ) (xs : List Executable) (w : World σ)
    (hopen : leavesOpen (s.batchEvents xs w) = true) : EndFailed (s.batchEvents xs w) := by
  rcases s.batchEvents_cases xs w with hnone | ⟨statements, -, h⟩
  · rw [hnone] at hopen
    cases hopen
  · exact h.endFailed Brackets.own_control hopen

theorem Session.batch_leavesOpen (s : Session σ) {xs : List Executable} (w : World σ)
    (hplain : ∀ statements, xs.mapM Executable.toStatement = .ok statements →
      ∀ st ∈ statements, (Call.run st).control? = none)
    (hend : EndFailed (s.batchEvents xs w)) : leavesOpen (s.batchEvents xs w) = true := by
  rcases s.batchEvents_cases xs w with hnone | ⟨statements, hread, h⟩
  · rw [hnone] at hend
    obtain ⟨_, _, ⟨⟩, -⟩ := hend
  · exact h.leavesOpen_of_endFailed Brackets.own_control (hplain statements hread) hend

/-- Once a batch, or the applying of migrations, has begun a transaction, the last control call
that succeeds is a commit or a rollback, unless the commit or the rollback that was to come last
failed. In that case the transaction stays open, if no statement ends it by itself. -/
theorem transactions_end (s : Session σ) (w : World σ) :
    (∀ xs : List Executable,
      let events := s.batchEvents xs w
      ((∃ e ∈ events, e.control? = some .begin) → ¬EndFailed events →
        lastControl? events = some .commit ∨ lastControl? events = some .rollback) ∧
      ((∀ statements, xs.mapM Executable.toStatement = .ok statements →
        ∀ st ∈ statements, (Call.run st).control? = none) →
          (leavesOpen events = true ↔ EndFailed events))) ∧
    ∀ m : Migrations,
      let events := m.applyEvents s w
      ((∃ e ∈ events, e.control? = some .begin) → ¬EndFailed events →
        lastControl? events = some .commit ∨ lastControl? events = some .rollback) ∧
      (m.Uncontrolled → (leavesOpen events = true ↔ EndFailed events)) := by
  refine ⟨fun xs => ⟨fun hbegun hend => ?_, fun hplain => ?_⟩,
    fun m => ⟨fun hbegun hend => ?_, fun hplain => ?_⟩⟩
  · exact ended_of_begun hbegun (Bool.eq_false_iff.2 fun h => hend (s.batch_endFailed xs w h))
  · exact ⟨s.batch_endFailed xs w, s.batch_leavesOpen w hplain⟩
  · exact ended_of_begun hbegun
      (Bool.eq_false_iff.2 fun h => hend ((m.apply_run s w).endFailed h))
  · exact ⟨(m.apply_run s w).endFailed, (m.apply_run s w).leavesOpen_of_endFailed hplain⟩

/-- A database that does what it is told but commits nothing. -/
def fullDisk : Wire.Server := fun _ event =>
  match event.call with
  | .commit => { failure := some (.operational "disk full") }
  | .execute (.text "COMMIT") _ => { failure := some (.operational "disk full") }
  | _ => {}

/-- A world in which a connection is held. -/
def connected : World Wire where
  peer := { opened := 1, held := some ⟨0, { url := .text "sqlite:///app.db" }⟩ }

/-- A commit that fails is not followed by a rollback, in a batch and in a migration. -/
theorem left_open_by_commit :
    let s : Session Wire := { adapter := Adapter.sqlite fullDisk 0 }
    let m : Migrations := { items := [⟨"001_users", "CREATE TABLE users (name TEXT)"⟩] }
    let batch := s.batchEvents [.statement (.plain "INSERT INTO saved VALUES (1)")] connected
    let applied := m.applyEvents s connected
    (batch.map fun e => (e.call.control?, e.succeeded))
        = [(some .begin, true), (none, true), (some .commit, false)] ∧
      leavesOpen batch = true ∧
      (applied.map fun e => (e.call.control?, e.succeeded))
        = [(none, true), (none, true), (some .begin, true), (none, true), (none, true),
          (some .commit, false)] ∧
      leavesOpen applied = true := by
  decide +kernel

end Querywright
