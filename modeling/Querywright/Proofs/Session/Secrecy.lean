/-
  Nothing that is told of a session shows the secrets among its arguments.

  * `Session.Task.Alike`: tasks whose statements differ in secrets alone.
  * `couples_serve` is of one task, `couples_serveAll` of one after the other: sessions with one
    observer over adapters in step give the same responses, and their iterators stay alike.
  * `secrets_are_untold`: with either adapter, two runs of such tasks that the driver answers alike
    leave one journal and one list of reports.
-/
import Querywright.Proofs.Adapter.InStep
import Querywright.Proofs.Session.Tasks

namespace Querywright

open Adapter (InStep)
open Wire (Server)

variable {server server' : Server} {a a' : Adapter Wire}

/-! ## Attempts -/

namespace Couples

variable {α : Type} {R : α → α → Prop} {b b' : Action Wire α}

theorem attempt (h : Couples server server' R b b') :
    Couples server server' (Matches R) (Action.attempt b) (Action.attempt b') where
  grows := h.grows
  grows' := h.grows'
  related w w' hw hanswers := by
    obtain ⟨hr, hafter⟩ := h.related w w' hw hanswers
    exact ⟨.ok hr, hafter⟩

theorem attempt_eq (h : Couples server server' Eq b b') :
    Couples server server' Eq (Action.attempt b) (Action.attempt b') where
  grows := h.grows
  grows' := h.grows'
  related w w' hw hanswers := by
    obtain ⟨hr, hafter⟩ := h.related w w' hw hanswers
    exact ⟨.ok (matches_eq.1 hr), hafter⟩

end Couples

/-! ## Observers -/

namespace Observer

variable {o : Observer}

/-- Who hears of alike statements hears the same. -/
theorem couples_tell {s s' : Statement} (elapsed : Binary64) (h : s.Alike s') :
    Couples server server' Eq (o.tell elapsed s) (o.tell elapsed s') := by
  cases o with
  | nobody => exact .pure rfl
  | hook =>
    rw [tell, tell, masked_of_alike h]
    exact .report _
  | journal =>
    rw [tell, tell, masked_of_alike h]
    exact .log _

theorem couples_conclude {statements statements' : List Statement} (began : Journal.Micros)
    (h : List.Forall₂ Statement.Alike statements statements') :
    Couples server server' Eq (o.conclude began statements) (o.conclude began statements') := by
  refine Couples.now.andThen fun ended => ?_
  induction h with
  | nil => exact .pure rfl
  | cons hs _ ih => exact (couples_tell _ hs).andThen fun _ => ih

theorem couples_watch {α : Type} {R : α → α → Prop} {statements statements' : List Statement}
    {body body' : Action Wire α} (h : List.Forall₂ Statement.Alike statements statements')
    (hbody : Couples server server' R body body') :
    Couples server server' R (o.watch statements body) (o.watch statements' body') :=
  Couples.now.andThen fun began => hbody.always (couples_conclude began h)

end Observer

/-! ## Statements and batches -/

/-- Sessions with one observer over adapters in step. -/
structure Session.InStep (server server' : Server) (s s' : Session Wire) : Prop where
  adapter : s.adapter.InStep server server' s'.adapter
  observer : s.observer = s'.observer

namespace Session

variable {s s' : Session Wire} (h : InStep server server' s s')

include h

theorem couples_run {x x' : Statement} (hx : x.Alike x') :
    Couples server server' Eq (s.run x) (s'.run x') := by
  rw [run, run, h.observer]
  exact Observer.couples_watch (.cons hx .nil) (h.adapter.run hx)

theorem couples_execute {x x' : Executable} (hx : x.Alike x') :
    Couples server server' Eq (s.execute x) (s'.execute x') :=
  (Couples.ofExcept hx).bind (fun _ _ hs => couples_run h hs) Statement.Alike.refl

theorem couples_batch {xs xs' : List Executable} (hxs : List.Forall₂ Executable.Alike xs xs') :
    Couples server server' Eq (s.batch xs) (s'.batch xs') := by
  refine (Couples.ofExcept (matches_mapM hxs fun _ _ hx => hx)).bind
    (fun statements statements' hs => ?_) fun statements => List.forall₂_same.2 fun s _ => .refl s
  have hlength := hs.length_eq
  cases hs with
  | nil => exact .pure rfl
  | cons hfirst hrest =>
    have hs := List.Forall₂.cons hfirst hrest
    rw [h.observer]
    refine Observer.couples_watch hs (h.adapter.begin.andThen fun _ => Couples.andThen (.onFault
      (Couples.mapM hs fun _ _ => h.adapter.run) fun e => ?_) fun results =>
        h.adapter.commit.andThen fun _ => .pure rfl)
    rw [hlength]
    exact (Couples.log _).andThen fun _ => h.adapter.rollback

end Session

/-! ## Streams -/

/-- Streams that have started with alike statements. -/
structure OpenStream.Alike (s s' : OpenStream) : Prop where
  statement : s.statement.Alike s'.statement
  observer : s.observer = s'.observer
  began : s.began = s'.began
  cursor : s.cursor = s'.cursor

theorem OpenStream.Alike.refl (s : OpenStream) : s.Alike s := ⟨.refl s.statement, rfl, rfl, rfl⟩

/-- Streams of alike statements that have come equally far. -/
inductive Stream.Alike : Stream → Stream → Prop where
  | waiting {s s' : Statement} (h : s.Alike s') : Alike (.waiting s) (.waiting s')
  | running {s s' : OpenStream} (h : s.Alike s') : Alike (.running s) (.running s')
  | ended : Alike .ended .ended

theorem Stream.Alike.refl (s : Stream) : s.Alike s := by
  cases s with
  | waiting s => exact .waiting (.refl s)
  | running s => exact .running (.refl s)
  | ended => exact .ended

namespace Stream

section

variable (h : InStep server server' a a') {s s' : OpenStream}

include h

theorem couples_finish {α : Type} {R : α → α → Prop} {last last' : Action Wire α} (hs : s.Alike s')
    (hlast : Couples server server' R last last') :
    Couples server server' R (finish a s last) (finish a' s' last') := by
  rw [finish, finish, hs.observer, hs.began, hs.cursor]
  exact (hlast.always (h.closeCursor _)).always
    (Observer.couples_conclude _ (.cons hs.statement .nil))

theorem couples_pull (hs : s.Alike s') :
    Couples server server' (SameWith Stream.Alike) (pull a s) (pull a' s') := by
  rw [pull, pull, hs.cursor]
  split
  · exact .pure ⟨rfl, .running ⟨hs.statement, hs.observer, hs.began, rfl⟩⟩
  · exact couples_finish h hs (.pure ⟨rfl, .ended⟩)
  · exact couples_finish h hs (.throw _)

end

variable {session session' : Session Wire} (h : session.InStep server server' session')

include h

theorem couples_start {x x' : Statement} (hx : x.Alike x') :
    Couples server server' OpenStream.Alike (start session x) (start session' x') := by
  refine Couples.now.andThen fun began => ?_
  rw [h.observer]
  exact Couples.andThen (.onFault (h.adapter.stream hx) fun _ =>
    Observer.couples_conclude began (.cons hx .nil)) fun _ => .pure ⟨hx, rfl, rfl, rfl⟩

theorem couples_next {s s' : Stream} (hs : s.Alike s') :
    Couples server server' (SameWith Stream.Alike) (next session s) (next session' s') := by
  cases hs with
  | waiting hs =>
    exact (couples_start h hs).bind (fun _ _ => couples_pull h.adapter) OpenStream.Alike.refl
  | running hs => exact couples_pull h.adapter hs
  | ended => exact .pure ⟨rfl, .ended⟩

theorem couples_close {s s' : Stream} (hs : s.Alike s') :
    Couples server server' Eq (close session s) (close session' s') := by
  cases hs with
  | waiting hs => exact .pure rfl
  | running hs => exact couples_finish h.adapter hs (.pure rfl)
  | ended => exact .pure rfl

end Stream

/-! ## Tasks -/

namespace Session

/-- Tasks whose statements differ in secrets alone. -/
inductive Task.Alike : Task → Task → Prop where
  | execute {x x' : Executable} (h : x.Alike x') : Alike (.execute x) (.execute x')
  | batch {xs xs' : List Executable} (h : List.Forall₂ Executable.Alike xs xs') :
    Alike (.batch xs) (.batch xs')
  | lazy {x x' : Executable} (h : x.Alike x') : Alike (.lazy x) (.lazy x')
  | next (i : Nat) : Alike (.next i) (.next i)
  | close (i : Nat) : Alike (.close i) (.close i)
  | wait (t : Journal.Micros) : Alike (.wait t) (.wait t)

/-- Iterators over alike streams, or that are refused alike. -/
abbrev Iterator.Alike : Iterator → Iterator → Prop := Matches Stream.Alike

theorem Iterator.Alike.refl (it : Iterator) : Iterator.Alike it it :=
  Matches.refl Stream.Alike.refl it

/-- Iterators that are alike at each place. -/
abbrev AllAlike : List Iterator → List Iterator → Prop := List.Forall₂ Iterator.Alike

theorem AllAlike.refl (its : List Iterator) : AllAlike its its :=
  List.forall₂_same.2 fun it _ => .refl it

variable {s s' : Session Wire} (h : s.InStep server server' s') {its its' : List Iterator}

include h

theorem couples_step {it it' : Iterator} (hit : Iterator.Alike it it') :
    Couples server server' (SameWith Iterator.Alike) (s.step it) (s'.step it') :=
  (Couples.ofExcept hit).bind (fun _ _ hs => (Stream.couples_next h hs).bind
    (fun _ _ hp => .pure ⟨hp.1, .ok hp.2⟩) (.refl Stream.Alike.refl)) Stream.Alike.refl

theorem couples_closeIterator {it it' : Iterator} (hit : Iterator.Alike it it') :
    Couples server server' Eq (s.closeIterator it) (s'.closeIterator it') := by
  cases hit with
  | ok hs => exact Stream.couples_close h hs
  | error e => exact .pure rfl

/-- One task: the response is the same, and the iterators stay alike. -/
theorem couples_serve (hits : AllAlike its its') {t t' : Task} (ht : t.Alike t') :
    Couples server server' (SameWith AllAlike) (s.serve its t) (s'.serve its' t') := by
  cases ht with
  | execute hx => exact (couples_execute h hx).attempt_eq.andThen fun r => .pure ⟨rfl, hits⟩
  | batch hxs => exact (couples_batch h hxs).attempt_eq.andThen fun r => .pure ⟨rfl, hits⟩
  | lazy hx =>
    exact .pure ⟨rfl, List.rel_append hits (.cons (hx.map fun _ _ => Stream.Alike.waiting) .nil)⟩
  | next i =>
    have hfound := forall₂_getElem? hits i
    rw [serve, serve]
    generalize its[i]? = found at hfound ⊢
    generalize its'[i]? = found' at hfound ⊢
    cases hfound with
    | none => exact .pure ⟨rfl, hits⟩
    | some hit =>
      refine (couples_step h hit).attempt.bind (fun r r' hr => ?_)
        (Matches.refl (.refl Iterator.Alike.refl))
      cases hr with
      | error e => exact .pure ⟨rfl, forall₂_set hits (.ok .ended) i⟩
      | @ok p p' hp =>
        obtain ⟨row, after⟩ := p
        obtain ⟨row', after'⟩ := p'
        obtain ⟨rfl, hafter⟩ := hp
        exact .pure ⟨rfl, forall₂_set hits hafter i⟩
  | close i =>
    have hfound := forall₂_getElem? hits i
    rw [serve, serve]
    generalize its[i]? = found at hfound ⊢
    generalize its'[i]? = found' at hfound ⊢
    cases hfound with
    | none => exact .pure ⟨rfl, hits⟩
    | some hit =>
      exact (couples_closeIterator h hit).attempt_eq.andThen fun r =>
        .pure ⟨rfl, forall₂_set hits (.ok .ended) i⟩
  | wait t => exact (Couples.pass t).andThen fun _ => .pure ⟨rfl, hits⟩

/-- Tasks one after the other. -/
theorem couples_serveAll (hits : AllAlike its its') {tasks tasks' : List Task}
    (htasks : List.Forall₂ Task.Alike tasks tasks') :
    Couples server server' (SameWith AllAlike) (s.serveAll its tasks)
      (s'.serveAll its' tasks') := by
  induction htasks generalizing its its' with
  | nil => exact .pure ⟨rfl, hits⟩
  | cons ht _ ih =>
    refine (couples_serve h hits ht).bind (fun p p' hp => ?_) (.refl AllAlike.refl)
    refine (ih hp.2).bind (fun q q' hq => .pure ⟨?_, hq.2⟩) (.refl AllAlike.refl)
    rw [hp.1, hq.1]

end Session

/-! ## Runs -/

/-- One adapter of the library against two servers. -/
inductive Adapter.Same (server server' : Server) : Adapter Wire → Adapter Wire → Prop where
  | sqlite (slow : Int) : Same server server' (.sqlite server slow) (.sqlite server' slow)
  | postgres (installed : Bool) (slow : Int) :
    Same server server' (.postgres server installed slow) (.postgres server' installed slow)

theorem Adapter.Same.inStep (h : Adapter.Same server server' a a') :
    InStep server server' a a' := by
  cases h with
  | sqlite slow => exact inStep_sqlite server server' slow
  | postgres installed slow => exact inStep_postgres server server' installed slow

/-- Two runs of tasks that differ in secrets alone, from one world and against servers that answer
alike: the journal is the same, observers are given the same reports, and the tasks come to the same
results and faults. -/
theorem secrets_are_untold {s s' : Session Wire}
    (hadapter : Adapter.Same server server' s.adapter s'.adapter)
    (hobserver : s.observer = s'.observer)
    {tasks tasks' : List Session.Task} (htasks : List.Forall₂ Session.Task.Alike tasks tasks')
    (w : World Wire)
    (hanswers : Wire.AnswerAlike server server' (s.after tasks w).calls (s'.after tasks' w).calls) :
    (s.after tasks w).journal = (s'.after tasks' w).journal ∧
      (s.after tasks w).reports = (s'.after tasks' w).reports ∧
      s.responses tasks w = s'.responses tasks' w := by
  obtain ⟨hr, hafter⟩ := (Session.couples_serveAll ⟨hadapter.inStep, hobserver⟩ .nil htasks).related
    w w (.refl w) hanswers
  refine ⟨hafter.journal, hafter.reports, ?_⟩
  rw [Session.responses, Session.responses]
  generalize (s.serveAll [] tasks w).1 = r at hr ⊢
  generalize (s'.serveAll [] tasks' w).1 = r' at hr ⊢
  cases hr with
  | ok hp => exact hp.1
  | error e => rfl

theorem secrets_are_untold_of_tokens :
    let server : Server := fun _ _ => { elapsed := 1500, columns := [.text "id"] }
    let s : Session Wire := { adapter := .postgres server true 0, observer := .hook }
    let w : World Wire := { peer := { opened := 1, held := some ⟨0, { url := .text "db" }⟩ } }
    let tasks (token : String) : List Session.Task :=
      [.execute (.statement ⟨.text "SELECT id FROM t WHERE k = ?2 AND u = ?1",
        [.int 7, .text token], .all⟩)]
    (s.after (tasks "Bearer 1f8a") w).journal = (s.after (tasks "secret=?") w).journal ∧
      (s.after (tasks "Bearer 1f8a") w).reports = (s.after (tasks "secret=?") w).reports ∧
      s.responses (tasks "Bearer 1f8a") w = s.responses (tasks "secret=?") w := by
  intro server s w tasks
  have hadapter : Adapter.Same server server s.adapter s.adapter := .postgres true 0
  refine secrets_are_untold hadapter rfl ?_ w fun _ _ _ _ _ => rfl
  refine .cons (.execute (.ok ⟨rfl, rfl, .cons (.inl rfl) (.cons (.inr ⟨?_, ?_⟩) .nil)⟩)) .nil
  · decide
  · decide

end Querywright
