/-
  A store in memory: the books themselves, and which of the next statements are to fail.
  Migrations in the default table are kept in it as in a database (`Ledger.keeps`).
-/
import Querywright.Proofs.Migration.Store

namespace Querywright

/-- Books in memory, and for each of the next statements whether it is to fail. -/
structure Ledger where
  books : Books
  failures : List Bool := []

namespace Ledger

/-- What a statement asks for. -/
inductive Request where
  | begin
  | commit
  | rollback
  | define
  | read
  | record
  | write
  deriving DecidableEq

/-- The text of a statement. -/
def textOf (s : Statement) : String := s.query.asText?.getD ""

/-- What a text asks for, where the table has its default name. -/
def request (sql : String) : Request :=
  let m : Migrations := { items := [] }
  ([("BEGIN", .begin), ("COMMIT", .commit), ("ROLLBACK", .rollback),
    (textOf (m.definition .sqlite), .define), (textOf m.reading, .read),
    (textOf (m.recording ""), .record)].lookup sql).getD .write

/-- Whether a request may not fail. -/
def Request.ends (r : Request) : Bool := r == .commit || r == .rollback

/-- The books after a statement, and the names that it reads. -/
def perform (s : Statement) (b : Books) : Option (Books × List Value) :=
  match request (textOf s) with
  | .begin => if b.working.isNone then some ({ b with working := some b.committed }, []) else none
  | .commit => b.working.map fun c => (⟨c, none⟩, [])
  | .rollback => b.working.map fun _ => (⟨b.committed, none⟩, [])
  | .define => some (b, [])
  | .read => if b.visible.names.all Value.isKey then some (b, b.visible.names) else none
  | .record => some (b.write ⟨[], s.arguments⟩, [])
  | .write => some (b.write ⟨[textOf s], []⟩, [])

/-- The row of a name. -/
def row (name : Value) : Entries := [(.text "name", name)]

/-- The result of a statement that has read names. -/
def result (names : List Value) : Result where
  collected := .all (names.map row)
  changes := 0
  written := 0
  command := .null
  elapsed := Journal.millis 0

/-- Run a statement. -/
def run (s : Statement) : Action Ledger Result := fun w =>
  let ends := (request (textOf s)).ends
  let fails := !ends && w.peer.failures.headD false
  let failures := if ends then w.peer.failures else w.peer.failures.tail
  match if fails then none else perform s w.peer.books with
  | none => (.error (.driver (.operational "refused")), { w with peer := ⟨w.peer.books, failures⟩ })
  | some (books, names) => (.ok (result names), { w with peer := ⟨books, failures⟩ })

/-- The adapter of a ledger. -/
def adapter : Adapter Ledger where
  dialect := .sqlite
  slowMillis := 0
  connect _ := return ()
  close := return ()
  execute _ _ := throw .unsupported
  run := run
  stream _ := throw .unsupported
  closeCursor _ := return ()
  begin := do let _ ← run (.plain "BEGIN")
  commit := do let _ ← run (.plain "COMMIT")
  rollback := do let _ ← run (.plain "ROLLBACK")

theorem adapter_run (s : Statement) : adapter.run s = run s := rfl

/-- Texts that neither control transactions nor touch the table. -/
def Plain (sql : String) : Prop := request sql = .write

instance : DecidablePred Plain := fun _ => inferInstanceAs (Decidable (_ = _))

variable {s : Statement} {w w' : World Ledger}

/-- A statement is refused and the books stay, or it is performed. One that ends a transaction is
refused only where it cannot be performed. -/
theorem run_cases (s : Statement) (w : World Ledger) :
    ((run s w).2.peer.books = w.peer.books ∧ (∃ e, (run s w).1 = .error e) ∧
        ((request (textOf s)).ends = true → perform s w.peer.books = none)) ∨
      ∃ b names, perform s w.peer.books = some (b, names) ∧ (run s w).1 = .ok (result names) ∧
        (run s w).2.peer.books = b := by
  simp only [run]
  split
  · rename_i hnone
    exact .inl ⟨rfl, ⟨_, rfl⟩, fun hends => by simpa [hends] using hnone⟩
  · rename_i b names hperformed
    split at hperformed
    · cases hperformed
    · exact .inr ⟨b, names, hperformed, rfl, rfl⟩

theorem books_of_error {e : Fault} (h : run s w = (.error e, w')) :
    w'.peer.books = w.peer.books := by
  obtain ⟨hbooks, -, -⟩ | ⟨b, names, -, hok, -⟩ := run_cases s w
  · rwa [h] at hbooks
  · rw [h] at hok
    cases hok

theorem books_of_ok {x : Result} (h : run s w = (.ok x, w')) :
    ∃ names, perform s w.peer.books = some (w'.peer.books, names) ∧
      x.collected.rows = names.map row := by
  obtain ⟨-, ⟨e, he⟩, -⟩ | ⟨b, names, hperformed, hok, hbooks⟩ := run_cases s w
  · rw [h] at he
    cases he
  · rw [h] at hok hbooks
    cases hok
    exact ⟨names, hbooks ▸ hperformed, rfl⟩

theorem run_ends {b : Books} (names : List Value) (hends : (request (textOf s)).ends = true)
    (h : perform s w.peer.books = some (b, names)) :
    ∃ x w', run s w = (.ok x, w') ∧ w'.peer.books = b := by
  obtain ⟨-, -, hnone⟩ | ⟨b', names', hperformed, hok, hbooks⟩ := run_cases s w
  · rw [hnone hends] at h
    cases h
  · rw [h] at hperformed
    cases hperformed
    exact ⟨_, _, Prod.ext hok rfl, hbooks⟩

theorem mapM_recordedName {names : List Value} (h : names.all Value.isKey = true) :
    (names.map row).mapM Migrations.recordedName = .ok names := by
  induction names with
  | nil => rfl
  | cons name rest ih =>
    rw [List.all_cons, Bool.and_eq_true] at h
    have hname : Migrations.recordedName (row name) = .ok name := by
      show (if name.isKey then Except.ok name else Except.error Fault.unsupported) = _
      rw [if_pos h.1]
    rw [List.map_cons, List.mapM_cons, hname, ih h.2]
    rfl

set_option maxRecDepth 2000 in
theorem request_definition :
    request (textOf (Migrations.definition { items := [] } .sqlite)) = .define := by
  decide

/-- What the statements ask for that applying migrations sends. -/
theorem requests (items : List Migration) (name : String) :
    let m : Migrations := { items }
    request (textOf (.plain "BEGIN")) = .begin ∧ request (textOf (.plain "COMMIT")) = .commit ∧
      request (textOf (.plain "ROLLBACK")) = .rollback ∧
      request (textOf (m.definition adapter.dialect)) = .define ∧
      request (textOf m.reading) = .read ∧ request (textOf (m.recording name)) = .record :=
  ⟨rfl, rfl, rfl, request_definition, rfl, rfl⟩

theorem books_eq {x : Result} {b : Books} (names : List Value) (h : run s w = (.ok x, w'))
    (hperform : perform s w.peer.books = some (b, names)) : w'.peer.books = b := by
  obtain ⟨names', hperformed, -⟩ := books_of_ok h
  exact (Prod.mk.inj (Option.some.inj (hperformed.symm.trans hperform))).1

/-- A ledger keeps books. -/
theorem keeps (items : List Migration) : Keeps adapter { items } Plain Ledger.books := by
  obtain ⟨hbegin, hcommit, hrollback, hdefine, hread, -⟩ := requests items ""
  constructor
  case uncontrolled =>
    intro sql hplain
    refine Control.ofText?_eq_none.2 ⟨?_, ?_, ?_⟩
    all_goals
      rintro rfl
      cases hplain
  case failed => exact books_of_error
  case begins =>
    intro w w' x h hidle
    refine books_eq [] h ?_
    simp only [perform, hbegin, hidle, Option.isNone_none, if_true]
  case commits =>
    intro w c hopen
    refine run_ends [] (by rw [hcommit]; rfl) ?_
    simp only [perform, hcommit, hopen, Option.map_some]
  case rollsBack =>
    intro w c hopen
    refine run_ends [] (by rw [hrollback]; rfl) ?_
    simp only [perform, hrollback, hopen, Option.map_some]
  case defines =>
    intro w w' x h
    rw [adapter_run] at h
    refine books_eq [] h ?_
    simp only [perform, hdefine]
  case reads =>
    intro w w' x h
    obtain ⟨names, hperformed, hrows⟩ := books_of_ok h
    simp only [perform, hread] at hperformed
    split at hperformed
    · rename_i hkeys
      obtain ⟨hbooks, rfl⟩ := Prod.mk.inj (Option.some.inj hperformed)
      exact ⟨hbooks.symm, by rw [hrows, mapM_recordedName hkeys]⟩
    · cases hperformed
  case records =>
    intro name w w' x h
    obtain ⟨-, -, -, -, -, hrecord⟩ := requests items name
    refine books_eq [] h ?_
    simp only [perform, hrecord]
    rfl
  case runs =>
    intro sql w w' x hplain h
    refine books_eq [] h ?_
    have hwrite : request (textOf (.plain sql)) = .write := hplain
    simp only [perform, hwrite]
    rfl

end Ledger
end Querywright
