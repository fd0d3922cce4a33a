/-
  Stores of migrations: what is kept of the statements that are sent to a database in which a
  transaction takes effect as a whole and a statement that fails has none.

  * `Books`: the committed contents of a store, and those of the open transaction.
  * `Keeps`: what is asked of an adapter whose database keeps such books.
  * `Keeps.transacted`: a migration in a transaction is kept as a whole or not at all.
  * `StoppedAt`: a fault stops a run, and what is open is rolled back.
-/
import Querywright.Proofs.Migration.Applying

namespace Querywright

open Adapter (Answer Call Event History history_append)

variable {σ : Type}

/-- What a store holds: the statements that have run, and the recorded names. -/
structure Contents where
  statements : List String := []
  names : List Value := []

instance : Append Contents where
  append c d := ⟨c.statements ++ d.statements, c.names ++ d.names⟩

theorem Contents.append_def (c d : Contents) :
    c ++ d = ⟨c.statements ++ d.statements, c.names ++ d.names⟩ := rfl

theorem Contents.append_assoc (a b c : Contents) : a ++ b ++ c = a ++ (b ++ c) := by
  simp only [append_def, List.append_assoc]

@[simp] theorem Contents.append_empty (c : Contents) : c ++ ⟨[], []⟩ = c := by
  simp only [append_def, List.append_nil]

/-- A store: its committed contents, and those that the open transaction works on. -/
structure Books where
  committed : Contents
  working : Option Contents := none

namespace Books

/-- The contents that a statement reads. -/
def visible (b : Books) : Contents := b.working.getD b.committed

/-- Write, in the open transaction if there is one. -/
def write (b : Books) (d : Contents) : Books :=
  match b.working with
  | none => { b with committed := b.committed ++ d }
  | some c => { b with working := some (c ++ d) }

end Books

/-- A database that keeps books, seen through an adapter. Transactions take effect as a whole, and
a statement that fails has no effect. Any statement may fail but those that end a transaction. The
plain texts are those that neither control transactions nor touch the table of migrations. -/
structure Keeps (a : Adapter σ) (m : Migrations) (plain : String → Prop) (books : σ → Books) :
    Prop where
  uncontrolled {sql : String} : plain sql → Control.ofText? sql = none
  failed {s : Statement} {w w' : World σ} {e : Fault} :
    a.run s w = (.error e, w') → books w'.peer = books w.peer
  begins {w w' : World σ} {x : Result} : a.run (.plain "BEGIN") w = (.ok x, w') →
    (books w.peer).working = none →
      books w'.peer = { books w.peer with working := some (books w.peer).committed }
  commits {w : World σ} {c : Contents} : (books w.peer).working = some c →
    ∃ x w', a.run (.plain "COMMIT") w = (.ok x, w') ∧ books w'.peer = ⟨c, none⟩
  rollsBack {w : World σ} {c : Contents} : (books w.peer).working = some c →
    ∃ x w', a.run (.plain "ROLLBACK") w = (.ok x, w') ∧
      books w'.peer = ⟨(books w.peer).committed, none⟩
  defines {w w' : World σ} {x : Result} : a.run (m.definition a.dialect) w = (.ok x, w') →
    books w'.peer = books w.peer
  reads {w w' : World σ} {x : Result} : a.run m.reading w = (.ok x, w') →
    books w'.peer = books w.peer ∧
      x.collected.rows.mapM Migrations.recordedName = .ok (books w.peer).visible.names
  records {name : String} {w w' : World σ} {x : Result} :
    a.run (m.recording name) w = (.ok x, w') →
      books w'.peer = (books w.peer).write ⟨[], [.text name]⟩
  runs {sql : String} {w w' : World σ} {x : Result} : plain sql →
    a.run (.plain sql) w = (.ok x, w') → books w'.peer = (books w.peer).write ⟨[sql], []⟩

/-! ## What a migration writes -/

/-- What migrations leave in a store: all their statements and their names. -/
def Contents.of (xs : List Migration) : Contents where
  statements := xs.flatMap fun x => Script.split x.sql
  names := xs.map fun x => .text x.name

theorem Contents.append_of_nil (c : Contents) : c ++ .of [] = c := c.append_empty

theorem Contents.of_append (xs ys : List Migration) :
    Contents.of (xs ++ ys) = Contents.of xs ++ Contents.of ys := by
  simp only [Contents.of, append_def, List.flatMap_append, List.map_append]

/-- Whether a script consists of plain statements. -/
def Migration.Plain (plain : String → Prop) (x : Migration) : Prop :=
  ∀ sql ∈ Script.split x.sql, plain sql

/-- The statements of a migration, each with what it writes. -/
def Migrations.steps (m : Migrations) (x : Migration) : List (Statement × Contents) :=
  ((Script.split x.sql).map fun sql => (Statement.plain sql, ⟨[sql], []⟩))
    ++ [(m.recording x.name, ⟨[], [.text x.name]⟩)]

theorem Migrations.map_fst_steps (m : Migrations) (x : Migration) :
    (m.steps x).map Prod.fst = m.statements x := by
  simp [steps, statements]

/-- Contents after steps. -/
def Contents.after (c : Contents) (steps : List (Statement × Contents)) : Contents :=
  steps.foldl (fun c step => c ++ step.2) c

theorem Contents.after_steps (c : Contents) (m : Migrations) (x : Migration) :
    c.after (m.steps x) = c ++ Contents.of [x] := by
  have hpieces (sqls : List String) (c : Contents) :
      c.after (sqls.map fun sql => (Statement.plain sql, ⟨[sql], []⟩)) = c ++ ⟨sqls, []⟩ := by
    induction sqls generalizing c with
    | nil => exact c.append_empty.symm
    | cons sql rest ih => simpa [after, append_def] using ih (c ++ ⟨[sql], []⟩)
  rw [Migrations.steps, after, List.foldl_append]
  show c.after _ ++ ⟨[], [.text x.name]⟩ = _
  rw [hpieces, Contents.append_assoc]
  simp [Contents.of, append_def]

/-! ## Runs that stop -/

/-- A statement failed, and nothing came after it but one successful rollback, exactly if it failed
inside a transaction. -/
inductive StoppedAt (e : Fault) : List Event → Prop where
  | outside {before : List Event} (failing : Statement)
      (hbefore : ∀ ev ∈ before, ev.succeeded = true) (hclosed : leavesOpen before = false) :
      StoppedAt e (before ++ [⟨.run failing, .error e⟩])
  | inside {before : List Event} (failing : Statement) (undone : Result)
      (hbefore : ∀ ev ∈ before, ev.succeeded = true) (hopen : leavesOpen before = true) :
      StoppedAt e (before ++
        [⟨.run failing, .error e⟩, ⟨.run (.plain "ROLLBACK"), .ok (.result undone)⟩])

theorem StoppedAt.after {e : Fault} {first events : List Event} (h : StoppedAt e events)
    (hfirst : Clean first) : StoppedAt e (first ++ events) := by
  cases h with
  | outside failing hbefore hclosed =>
    rw [← List.append_assoc]
    exact .outside failing (List.forall_mem_append.2 ⟨hfirst.succeeded, hbefore⟩)
      ((leavesOpen_append hfirst.closed).trans hclosed)
  | inside failing undone hbefore hopen =>
    rw [← List.append_assoc]
    exact .inside failing undone (List.forall_mem_append.2 ⟨hfirst.succeeded, hbefore⟩)
      ((leavesOpen_append hfirst.closed).trans hopen)

/-! ## Statements inside a transaction -/

namespace Keeps

variable {a : Adapter σ} {m : Migrations} {plain : String → Prop} {books : σ → Books}
  {before after : σ} {c open' : Contents}

/-- What a statement writes when it succeeds. -/
def Writes (a : Adapter σ) (books : σ → Books) (step : Statement × Contents) : Prop :=
  ∀ {w w' : World σ} {x : Result}, a.run step.1 w = (.ok x, w') →
    books w'.peer = (books w.peer).write step.2

theorem writes_steps (h : Keeps a m plain books) {x : Migration} (hx : x.Plain plain) :
    ∀ step ∈ m.steps x, Writes a books step := by
  rw [Migrations.steps]
  refine List.forall_mem_append.2 ⟨?_, ?_⟩
  · rw [List.forall_mem_map]
    exact fun sql hsql => h.runs (hx sql hsql)
  · rw [List.forall_mem_singleton]
    exact h.records

theorem answers_error (h : Keeps a m plain books) {s : Statement} {e : Fault}
    (ha : a.Answers before ⟨.run s, .error e⟩ after) : books after = books before := by
  obtain ⟨w, r, w', hrun, rfl, rfl, hr⟩ := ha.run
  cases r with
  | ok x => cases hr
  | error e => exact h.failed hrun

/-- Statements that have run inside a transaction, and what they have written. -/
theorem history_ran {steps : List (Statement × Contents)} (hsteps : ∀ p ∈ steps, Writes a books p)
    {ran : List Ran} (hran : ran.map Prod.fst = steps.map Prod.fst)
    (hhistory : a.History before (ran.map Ran.event) after)
    (hopen : books before = ⟨c, some open'⟩) :
    books after = ⟨c, some (open'.after steps)⟩ := by
  induction ran generalizing before steps open' with
  | nil =>
    cases steps with
    | nil =>
      cases hhistory
      exact hopen
    | cons step rest => cases hran
  | cons first ran ih =>
    cases steps with
    | nil => cases hran
    | cons step rest =>
      obtain ⟨hfirst, hrest⟩ := List.cons.inj hran
      obtain ⟨between, hcall, hlater⟩ := hhistory
      obtain ⟨w, r, w', hrun, rfl, rfl, hr⟩ := hcall.run
      cases r with
      | error e => cases hr
      | ok x =>
        rw [hfirst] at hrun
        have hwritten := hsteps step List.mem_cons_self hrun
        rw [hopen] at hwritten
        have hlast := ih (List.forall_mem_cons.1 hsteps).2 hrest hlater hwritten
        exact hlast

theorem answers_begin (h : Keeps a m plain books) {begun : Answer}
    (ha : a.Answers before ⟨Brackets.sent.begin, .ok begun⟩ after)
    (hidle : books before = ⟨c, none⟩) : books after = ⟨c, some c⟩ := by
  obtain ⟨w, r, w', hrun, rfl, rfl, hr⟩ := ha.run
  cases r with
  | error e => cases hr
  | ok x =>
    rw [h.begins hrun (congrArg Books.working hidle), hidle]

theorem answers_commit (h : Keeps a m plain books) {answer : Except Fault Answer}
    (ha : a.Answers before ⟨Brackets.sent.commit, answer⟩ after)
    (hopen : books before = ⟨c, some open'⟩) :
    (∃ x, answer = .ok (.result x)) ∧ books after = ⟨open', none⟩ := by
  obtain ⟨w, r, w', hrun, rfl, rfl, hr⟩ := ha.run
  obtain ⟨x, w₁, hcommit, hafter⟩ := h.commits (congrArg Books.working hopen)
  cases hcommit.symm.trans hrun
  exact ⟨⟨x, hr⟩, hafter⟩

theorem answers_rollback (h : Keeps a m plain books) {answer : Except Fault Answer}
    (ha : a.Answers before ⟨Brackets.sent.rollback, answer⟩ after)
    (hopen : books before = ⟨c, some open'⟩) :
    (∃ x, answer = .ok (.result x)) ∧ books after = ⟨c, none⟩ := by
  obtain ⟨w, r, w', hrun, rfl, rfl, hr⟩ := ha.run
  obtain ⟨x, w₁, hrollback, hafter⟩ := h.rollsBack (congrArg Books.working hopen)
  cases hrollback.symm.trans hrun
  rw [hopen] at hafter
  exact ⟨⟨x, hr⟩, hafter⟩

theorem uncontrolled_statements (h : Keeps a m plain books) {x : Migration} (hx : x.Plain plain) :
    ∀ s ∈ m.statements x, (Call.run s).control? = none := by
  rw [Migrations.statements]
  refine List.forall_mem_append.2 ⟨?_, ?_⟩
  · rw [List.forall_mem_map]
    exact fun sql hsql => h.uncontrolled (hx sql hsql)
  · exact List.forall_mem_singleton.2 (m.recording_uncontrolled x.name)

/-- A migration in a transaction is kept as a whole, or not at all. -/
theorem transacted (h : Keeps a m plain books) {x : Migration} (hx : x.Plain plain)
    {events : List Event} {r : Except Fault (List Result)}
    (ht : Transacted .sent (m.statements x) events r) (hhistory : a.History before events after)
    (hidle : books before = ⟨c, none⟩) :
    (∀ results, r = .ok results → books after = ⟨c ++ .of [x], none⟩ ∧ Clean events) ∧
      ∀ e, r = .error e → books after = ⟨c, none⟩ ∧ StoppedAt e events := by
  have huncontrolled := h.uncontrolled_statements hx
  have hwrites := h.writes_steps hx
  have hsteps := m.map_fst_steps x
  have hclean : ∀ results, r = .ok results → Clean events := by
    rintro results rfl
    exact ht.clean Brackets.sent_control
  generalize m.statements x = statements at ht huncontrolled hsteps
  cases ht with
  | notBegun e =>
    obtain ⟨_, hbegin, rfl⟩ := hhistory
    have hstopped : StoppedAt e ([] ++ [⟨Brackets.sent.begin, .error e⟩]) :=
      .outside (.plain "BEGIN") (List.forall_mem_nil _) rfl
    refine ⟨nofun, fun _ hr => ?_⟩
    cases hr
    exact ⟨(h.answers_error hbegin).trans hidle, hstopped⟩
  | undone begun ran failing rest e rollback =>
    obtain ⟨_, hbegin, hlater⟩ := hhistory
    obtain ⟨_, hran, _, hfailing, _, hrollback, rfl⟩ := history_append.1 hlater
    -- Only the steps before the failing one have written, and the rollback forgets them.
    obtain ⟨first, last, hsplit, hfirst, -⟩ := List.map_eq_append_iff.1 hsteps
    rw [hsplit] at hwrites
    have hworked := history_ran (List.forall_mem_append.1 hwrites).1 hfirst.symm hran
      (h.answers_begin hbegin hidle)
    obtain ⟨⟨undone, rfl⟩, hafter⟩ := h.answers_rollback hrollback
      ((h.answers_error hfailing).trans hworked)
    refine ⟨nofun, fun _ hr => ?_⟩
    cases hr
    have hopen : leavesOpen (⟨Brackets.sent.begin, .ok begun⟩ :: ran.map Ran.event) = true :=
      Transacted.leavesOpen_ran Brackets.sent_control fun p hp =>
        huncontrolled p.1 (List.mem_append_left _ (List.mem_map_of_mem hp))
    exact ⟨hafter, .inside failing undone
      (List.forall_mem_cons.2 ⟨rfl, Ran.succeeded_events ran⟩) hopen⟩
  | ended begun ran commit =>
    obtain ⟨_, hbegin, hlater⟩ := hhistory
    obtain ⟨_, hran, _, hcommit, rfl⟩ := history_append.1 hlater
    have hworked := history_ran hwrites hsteps.symm hran (h.answers_begin hbegin hidle)
    obtain ⟨⟨ended, rfl⟩, hafter⟩ := h.answers_commit hcommit hworked
    rw [Contents.after_steps] at hafter
    exact ⟨fun results hr => ⟨hafter, hclean results hr⟩, nofun⟩

end Keeps

end Querywright
