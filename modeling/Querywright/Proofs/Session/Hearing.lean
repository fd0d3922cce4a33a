/-
  What a hook hears of a session, and that it changes nothing.

  * `Session.hears`: what a hook is to hear of a task, from what the caller sees of it alone: the
    statements that are asked for and the responses. An iterator is heard of when it ends, if it
    had been started.
  * `Heard`: an action beside the same one without a hook. Both come to the same, and the hook hears
    of the statements that the outcome tells.
  * `Session.heard_serve` is of one task, `Session.heard_serveAll` of one after the other.
  * `executions_are_heard`: so over both adapters, whatever the driver answers.
-/
import Querywright.Proofs.Adapter.Silence
import Querywright.Proofs.Session.Streaming

namespace Querywright

open Wire (Server)

variable {σ α β γ : Type}

/-! ## What is to be heard -/

namespace Session

/-- How far an iterator has come, as a caller knows it. -/
inductive Progress where
  | fresh (s : Statement)
  | started (s : Statement)
  | over

/-- What is heard of an iterator that is asked for a row, and how far it has come then. It goes on
as long as it gives rows. -/
def Progress.asked (p : Progress) (response : Except Fault Response) : List Statement × Progress :=
  match p, response with
  | .over, _ => ([], .over)
  | .fresh s, .ok (.row (some _)) | .started s, .ok (.row (some _)) => ([], .started s)
  | .fresh s, _ | .started s, _ => ([s], .over)

/-- What is heard of an iterator that is closed. -/
def Progress.closed : Progress → List Statement
  | .started s => [s]
  | _ => []

/-- What a hook is to hear of a task, and how far the iterators have come after it. -/
def hears (its : List Progress) : Task → Except Fault Response → List Statement × List Progress
  | .execute x, _ => (x.toStatement.toOption.toList, its)
  | .batch xs, _ => ((xs.mapM Executable.toStatement).toOption.getD [], its)
  | .lazy x, _ => ([], its ++ [x.toStatement.toOption.elim .over .fresh])
  | .next i, response =>
    match its[i]? with
    | none => ([], its)
    | some p => ((p.asked response).1, its.set i (p.asked response).2)
  | .close i, _ =>
    match its[i]? with
    | none => ([], its)
    | some p => (p.closed, its.set i .over)
  | .wait _, _ => ([], its)

/-- What a hook is to hear of tasks one after the other. -/
def hearsAll (its : List Progress) : List (Task × Except Fault Response) → List Statement
  | [] => []
  | (task, response) :: rest =>
    (hears its task response).1 ++ hearsAll (hears its task response).2 rest

end Session

/-! ## Hooks -/

/-- The reports are about these statements in their order, with the secrets masked. -/
def About (reports : List Report) (statements : List Statement) : Prop :=
  reports.map (·.statement) = statements.map Observer.masked

theorem About.append {first second : List Report} {told told' : List Statement}
    (h : About first told) (h' : About second told') : About (first ++ second) (told ++ told') := by
  rw [About, List.map_append, List.map_append, h, h']

namespace Observer

/-- The reports of statements that have taken some time. -/
def reportsOf (elapsed : Binary64) (statements : List Statement) : List Report :=
  statements.map fun s => ⟨masked s, elapsed⟩

theorem about_reportsOf (elapsed : Binary64) (statements : List Statement) :
    About (reportsOf elapsed statements) statements := List.map_map

theorem conclude_hook (began : Journal.Micros) (statements : List Statement) (w : World σ) :
    conclude .hook began statements w = (.ok (), w.reporting
      (w.reports ++ reportsOf (Journal.millis (w.clock - began)) statements)) := by
  have htold (elapsed : Binary64) : (statements.forM (tell .hook elapsed)) w
      = (.ok (), w.reporting (w.reports ++ reportsOf elapsed statements)) := by
    induction statements generalizing w with
    | nil =>
      rw [reportsOf, List.map_nil, List.append_nil]
      rfl
    | cons s rest ih =>
      have hfirst : tell .hook elapsed s w
          = (.ok (), w.reporting (w.reports ++ [⟨masked s, elapsed⟩])) := rfl
      rw [reportsOf, List.map_cons, List.append_cons]
      exact (Action.bind_of_ok hfirst).trans (ih _)
  rw [conclude, Action.bind_of_ok (Action.now_apply w)]
  exact htold _

theorem conclude_nobody (began : Journal.Micros) (statements : List Statement) (w : World σ) :
    conclude .nobody began statements w = (.ok (), w) := by
  rw [conclude, Action.bind_of_ok (Action.now_apply w)]
  induction statements with
  | nil => rfl
  | cons s rest ih => exact ih

end Observer

/-- Actions that differ in their observers. What one comes to with a hook it comes to without one,
up to the observers that show in the outcome, and it leaves the same world but for the reports;
those that the hook is given are about the statements that the outcome tells. -/
def Heard (told : Except Fault γ → List Statement) (view : Observer → γ → α)
    (a : Observer → Action σ α) : Prop :=
  ∀ w reports, ∃ r w' more, a .nobody w = (r.map (view .nobody), w') ∧
    a .hook (w.reporting reports) = (r.map (view .hook), w'.reporting (reports ++ more)) ∧
    About more (told r)

/-- The outcome is the same for every observer. -/
def same {α : Type} : Observer → α → α := fun _ x => x

theorem map_same (o : Observer) (r : Except Fault α) : r.map (same o) = r := by
  cases r <;> rfl

namespace Heard

variable {told : Except Fault γ → List Statement} {view : Observer → γ → α}
  {a : Observer → Action σ α}

theorem of_silent {a : Action σ α} (h : Silent a) : Heard (fun _ => []) same fun _ => a := by
  intro w reports
  refine ⟨(a w).1, (a w).2, [], ?_, ?_, rfl⟩
  · rw [map_same]
    rfl
  · rw [map_same, List.append_nil]
    exact h w reports

/-- The same actions, where the outcome is seen as part of a larger one. -/
theorem of_map {k : γ → β} {told' : Except Fault β → List Statement} {view' : Observer → β → α}
    (h : Heard told view a) (hview : ∀ o x, view' o (k x) = view o x)
    (htold : ∀ r, told' (r.map k) = told r) : Heard told' view' a := by
  intro w reports
  obtain ⟨r, w', more, hquiet, hhook, habout⟩ := h w reports
  have hsame (o : Observer) : (r.map k).map (view' o) = r.map (view o) := by
    cases r with
    | error e => rfl
    | ok x => exact congrArg Except.ok (hview o x)
  refine ⟨r.map k, w', more, ?_, ?_, (htold r).symm ▸ habout⟩
  · rw [hsame, hquiet]
  · rw [hsame, hhook]

/-- The hook is told at the end, whatever the outcome. -/
theorem concluded (h : Heard (fun _ => []) view a) (began : Journal.Micros)
    (statements : List Statement) :
    Heard (fun _ => statements) view
      fun o => Action.always (a o) (o.conclude began statements) := by
  intro w reports
  obtain ⟨r, w', more, hquiet, hhook, habout⟩ := h w reports
  obtain rfl : more = [] := List.map_eq_nil_iff.1 habout
  refine ⟨r, w', Observer.reportsOf (Journal.millis (w'.clock - began)) statements, ?_, ?_,
    Observer.about_reportsOf _ statements⟩
  · dsimp only
    rw [Action.always_apply, hquiet, Observer.conclude_nobody, ok_bind]
  · dsimp only
    rw [Action.always_apply, hhook, Observer.conclude_hook, ok_bind, List.append_nil]
    rfl

end Heard

theorem heard_watch {body : Action σ α} (h : Silent body) (statements : List Statement) :
    Heard (fun _ => statements) same fun o => o.watch statements body :=
  fun w => (Heard.of_silent h).concluded w.clock statements w

/-! ## Statements, batches and streams -/

/-- The session with another observer. -/
def Session.observed (s : Session σ) (o : Observer) : Session σ := { s with observer := o }

/-- A stream that has started, with another observer. -/
def OpenStream.observed (s : OpenStream) (o : Observer) : OpenStream := { s with observer := o }

/-- The stream with another observer, if it has started. -/
def Stream.observed : Stream → Observer → Stream
  | .running s, o => .running (s.observed o)
  | s, _ => s

section

variable {s : Session σ} (h : s.adapter.AllSilent)

include h

namespace Session

theorem heard_execute (x : Executable) :
    Heard (fun _ => x.toStatement.toOption.toList) same fun o => (s.observed o).execute x := by
  simp only [execute]
  cases x.toStatement with
  | error e =>
    simp only [Action.ofExcept_error_bind]
    exact .of_silent (.throw e)
  | ok statement =>
    simp only [Action.ofExcept_ok_bind]
    exact heard_watch (h.run statement) [statement]

theorem heard_batch (xs : List Executable) :
    Heard (fun _ => (xs.mapM Executable.toStatement).toOption.getD []) same
      fun o => (s.observed o).batch xs := by
  simp only [batch]
  rcases xs.mapM Executable.toStatement with e | (_ | ⟨first, rest⟩)
  · simp only [Action.ofExcept_error_bind]
    exact .of_silent (.throw e)
  · simp only [Action.ofExcept_ok_bind, List.isEmpty_nil, if_true]
    exact .of_silent (.pure [])
  · have hran : Silent (Action.onFault ((first :: rest).mapM s.adapter.run) fun _ => do
        Action.log (batchFailed (first :: rest).length)
        s.adapter.rollback) :=
      (Silent.mapM h.run _).onFault fun _ => (Silent.log _).bind fun _ => h.rollback
    have hbody := h.begin.bind fun _ => hran.bind fun results =>
      h.commit.bind fun _ => .pure results
    simp only [Action.ofExcept_ok_bind, List.isEmpty_cons, Bool.false_eq_true, if_false]
    exact heard_watch hbody (first :: rest)

end Session

namespace Stream

/-- What is heard of statements when a stream is asked for a row: nothing as long as it gives
one. -/
def toldAfter (statements : List Statement) : Except Fault (Option Entries × γ) → List Statement
  | .ok (some _, _) => []
  | _ => statements

/-- The statement that a stream still has to end. -/
def statements : Stream → List Statement
  | .waiting s => [s]
  | .running o => [o.statement]
  | .ended => []

/-- A step of a stream that is seen with an observer. -/
def seen (o : Observer) (p : Option Entries × Stream) : Option Entries × Stream :=
  (p.1, p.2.observed o)

/-- A stream that ends, as its last step does if closing the cursor does not fail. -/
theorem heard_finish (o : OpenStream) (r : Except Fault Unit) (x : α) :
    Heard (fun _ => [o.statement]) (fun _ (_ : Unit) => x)
      fun ob => finish s.adapter (o.observed ob) (Action.ofExcept (r.map fun _ => x)) := by
  refine Heard.concluded ?_ o.began [o.statement]
  intro w reports
  have hlast (w : World σ) : Action.ofExcept (r.map fun _ => x) w = (r.map fun _ => x, w) := rfl
  have hmap (c : Except Fault Unit) :
      (c >>= fun _ => r.map fun _ => x) = (c >>= fun _ => r).map fun _ => x := by
    cases c <;> rfl
  refine ⟨(s.adapter.closeCursor o.cursor w).1 >>= fun _ => r,
    (s.adapter.closeCursor o.cursor w).2, [], ?_, ?_, rfl⟩
  · dsimp only
    rw [Action.always_apply, hlast, hmap]
    rfl
  · dsimp only
    rw [Action.always_apply, hlast, hmap, List.append_nil]
    dsimp only [OpenStream.observed]
    rw [h.closeCursor o.cursor w reports]

theorem heard_pull (o : OpenStream) :
    Heard (toldAfter [o.statement]) seen fun ob => pull s.adapter (o.observed ob) := by
  have hlast (r : Except Fault Unit) : Heard (toldAfter [o.statement]) seen fun ob =>
      finish s.adapter (o.observed ob) (Action.ofExcept (r.map fun _ => (none, Stream.ended))) := by
    refine (heard_finish h o r (none, Stream.ended)).of_map (k := fun _ => (none, .ended))
      (fun _ _ => rfl) fun r => ?_
    cases r <;> rfl
  unfold pull
  cases hpull : o.cursor.pull with
  | error e =>
    simp only [OpenStream.observed, hpull]
    exact hlast (.error e)
  | ok row =>
    cases row with
    | none =>
      simp only [OpenStream.observed, hpull]
      exact hlast (.ok ())
    | some row =>
      simp only [OpenStream.observed, hpull]
      intro w reports
      exact ⟨.ok (some row, .running { o with cursor := o.cursor.advance }), w, [], rfl,
        by rw [List.append_nil]; rfl, rfl⟩

theorem heard_next (stream : Stream) :
    Heard (toldAfter stream.statements) seen
      fun ob => next (s.observed ob) (stream.observed ob) := by
  cases stream with
  | waiting statement =>
    intro w reports
    have hstream := h.stream statement w reports
    rcases hrun : s.adapter.stream statement w with ⟨e | c, w₁⟩ <;> rw [hrun] at hstream
    · refine ⟨.error e, w₁, Observer.reportsOf (Journal.millis (w₁.clock - w.clock)) [statement],
        ?_, ?_, Observer.about_reportsOf _ [statement]⟩
      · exact Action.bind_of_error
          (start_of_error (s.observed .nobody) hrun (Observer.conclude_nobody _ _ _))
      · exact Action.bind_of_error
          (start_of_error (s.observed .hook) hstream (Observer.conclude_hook _ _ _))
    · obtain ⟨r, w', more, hquiet, hhook, habout⟩ :=
        heard_pull h ⟨statement, .nobody, w.clock, c⟩ w₁ reports
      refine ⟨r, w', more, ?_, ?_, habout⟩
      · exact (Action.bind_of_ok (start_of_ok (s.observed .nobody) hrun)).trans hquiet
      · exact (Action.bind_of_ok (start_of_ok (s.observed .hook) hstream)).trans hhook
  | running o => exact heard_pull h o
  | ended =>
    intro w reports
    exact ⟨.ok (none, .ended), w, [], rfl, by rw [List.append_nil]; rfl, rfl⟩

/-- A stream that has started is heard of when it is closed. -/
theorem heard_close (stream : Stream) :
    Heard (fun _ => match stream with | .running o => [o.statement] | _ => []) same
      fun ob => close (s.observed ob) (stream.observed ob) := by
  cases stream with
  | running o => exact (heard_finish h o (.ok ()) ()).of_map (k := id) (fun _ _ => rfl) fun r => rfl
  | waiting _ => exact .of_silent (.pure ())
  | ended => exact .of_silent (.pure ())

end Stream

end

/-! ## Iterators -/

namespace Session

/-- The iterator with another observer. -/
def Iterator.observed (it : Iterator) (o : Observer) : Iterator := it.map (·.observed o)

/-- How far an iterator has come. -/
def Iterator.progress : Iterator → Progress
  | .ok (.waiting s) => .fresh s
  | .ok (.running o) => .started o.statement
  | _ => .over

/-- The response to a step, and the iterator after it. It ends with its first fault. -/
def landing : Except Fault (Option Entries × Iterator) → Except Fault Response × Iterator
  | .ok (row, it) => (.ok (.row row), it)
  | .error e => (.error e, .ok .ended)

/-- A step with another observer. -/
def Iterator.seen (o : Observer) (p : Option Entries × Iterator) : Option Entries × Iterator :=
  (p.1, p.2.observed o)

theorem landing_seen (o : Observer) (r : Except Fault (Option Entries × Iterator)) :
    landing (r.map (Iterator.seen o)) = ((landing r).1, (landing r).2.observed o) := by
  cases r <;> rfl

theorem progress_observed (stream : Stream) (o : Observer) :
    Iterator.progress (.ok (stream.observed o)) = Iterator.progress (.ok stream) := by
  cases stream <;> rfl

/-- Iterators with another observer. -/
abbrev allObserved (its : List Iterator) (o : Observer) : List Iterator :=
  its.map (·.observed o)

/-- How far iterators have come. -/
abbrev allProgress (its : List Iterator) : List Progress := its.map Iterator.progress

section

variable {s : Session σ} {its : List Iterator} {it : Iterator} {i : Nat} {w w' : World σ}

theorem getElem?_allObserved (o : Observer) (h : its[i]? = some it) :
    (allObserved its o)[i]? = some (it.observed o) := by
  rw [List.getElem?_map, h, Option.map_some]

theorem getElem?_allProgress (h : its[i]? = some it) :
    (allProgress its)[i]? = some it.progress := by
  rw [List.getElem?_map, h, Option.map_some]

/-- An iterator that has ended has no observer. -/
theorem set_ended (o : Observer) :
    (its.set i (.ok .ended)).map (·.observed o)
      = (its.map (·.observed o)).set i (.ok .ended) := List.map_set

theorem serve_execute {x : Executable} {r : Except Fault Result} (h : s.execute x w = (r, w')) :
    s.serve its (.execute x) w = (.ok (r.map .result, its), w') :=
  Action.bind_of_ok (Action.attempt_of_eq h)

theorem serve_batch {xs : List Executable} {r : Except Fault (List Result)}
    (h : s.batch xs w = (r, w')) :
    s.serve its (.batch xs) w = (.ok (r.map .results, its), w') :=
  Action.bind_of_ok (Action.attempt_of_eq h)

theorem serve_next {r : Except Fault (Option Entries × Iterator)} (hit : its[i]? = some it)
    (h : s.step it w = (r, w')) :
    s.serve its (.next i) w = (.ok ((landing r).1, its.set i (landing r).2), w') := by
  rw [serve, hit]
  refine (Action.bind_of_ok (Action.attempt_of_eq h)).trans ?_
  rcases r with e | ⟨row, it⟩ <;> rfl

theorem serve_close {r : Except Fault Unit} (hit : its[i]? = some it)
    (h : s.closeIterator it w = (r, w')) :
    s.serve its (.close i) w = (.ok (r.map fun _ => .done, its.set i (.ok .ended)), w') := by
  rw [serve, hit]
  exact Action.bind_of_ok (Action.attempt_of_eq h)

end

variable {s : Session σ} {w w' : World σ}

/-- A task with a hook and without one: the response is the same, so is the world but for the
reports, and those that the hook is given are what it is to hear. -/
def HeardServe (s : Session σ) (its : List Iterator) (task : Task) : Prop :=
  ∀ (w : World σ) (reports : List Report), ∃ response its' w' more,
    (s.observed .nobody).serve (allObserved its .nobody) task w
      = (.ok (response, allObserved its' .nobody), w') ∧
    (s.observed .hook).serve (allObserved its .hook) task (w.reporting reports)
      = (.ok (response, allObserved its' .hook), w'.reporting (reports ++ more)) ∧
    About more (hears (allProgress its) task response).1 ∧
    allProgress its' = (hears (allProgress its) task response).2

/-- A task that has nothing to do with the observer. -/
theorem HeardServe.of_idle {its : List Iterator} (its' : List Iterator)
    (response : Except Fault Response) {task : Task}
    (hserve : ∀ w : World σ, ∃ w' : World σ, ∀ o reports,
      (s.observed o).serve (allObserved its o) task (w.reporting reports)
        = (.ok (response, allObserved its' o), w'.reporting reports))
    (hhears : hears (allProgress its) task response = ([], allProgress its')) :
    s.HeardServe its task := by
  intro w reports
  obtain ⟨w', hserve⟩ := hserve w
  refine ⟨response, its', w'.reporting w.reports, [], hserve .nobody w.reports, ?_, ?_, ?_⟩
  · rw [List.append_nil]
    exact hserve .hook reports
  · rw [hhears]
    rfl
  · rw [hhears]

/-- A stream that has started goes on as long as it gives rows. -/
theorem progress_pull {o : OpenStream} {stream : Stream} {row : Option Entries}
    (h : Stream.pull s.adapter o w = (.ok (row, stream), w')) :
    Iterator.progress (.ok stream)
      = ((Progress.started o.statement).asked (.ok (.row row))).2 := by
  have hended {r : Except Fault (Option Entries × Stream)}
      (hlast : Stream.finish s.adapter o (Action.ofExcept r) w = (.ok (row, stream), w')) :
      r = .ok (row, stream) := by
    rw [Stream.finish, Action.always_apply, Action.always_apply] at hlast
    obtain ⟨_, -, hlast⟩ := bind_eq_ok.1 (congrArg Prod.fst hlast)
    obtain ⟨_, -, hlast⟩ := bind_eq_ok.1 hlast
    exact hlast
  rw [Stream.pull] at h
  rcases hpull : o.cursor.pull with e | (_ | row') <;> rw [hpull] at h
  · cases hended (r := .error e) h
  · cases hended (r := .ok (none, .ended)) h
    rfl
  · cases h
    rfl

theorem progress_next {stream stream' : Stream} {row : Option Entries}
    (h : Stream.next s stream w = (.ok (row, stream'), w')) :
    Iterator.progress (.ok stream')
      = ((Iterator.progress (.ok stream)).asked (.ok (.row row))).2 := by
  cases stream with
  | running o => exact progress_pull h
  | ended =>
    cases h
    rfl
  | waiting statement =>
    obtain ⟨o, w₁, hstart, hpull⟩ := Action.bind_eq_ok.1 h
    have hstatement : o.statement = statement := by
      obtain ⟨began, w₂, -, hstart⟩ := Action.bind_eq_ok.1 hstart
      obtain ⟨c, w₃, -, hopened⟩ := Action.bind_eq_ok.1 hstart
      cases hopened
      rfl
    rw [progress_pull hpull, hstatement]
    cases row <;> rfl

section

variable (h : s.adapter.AllSilent)

include h

/-- A step of an iterator. It goes over a stream, or is refused without a word. -/
theorem heard_step (it : Iterator) (w : World σ) (reports : List Report) :
    ∃ (r : Except Fault (Option Entries × Iterator)) (w' : World σ) (more : List Report),
      (s.observed .nobody).step (it.observed .nobody) w = (r.map (Iterator.seen .nobody), w') ∧
      (s.observed .hook).step (it.observed .hook) (w.reporting reports)
        = (r.map (Iterator.seen .hook), w'.reporting (reports ++ more)) ∧
      About more (it.progress.asked (landing r).1).1 ∧
      (landing r).2.progress = (it.progress.asked (landing r).1).2 := by
  cases it with
  | error e => exact ⟨.error e, w, [], rfl, by rw [List.append_nil]; rfl, rfl, rfl⟩
  | ok stream =>
    obtain ⟨r, w', more, hquiet, hhook, habout⟩ := Stream.heard_next h stream w reports
    refine ⟨r.map fun p => (p.1, .ok p.2), w', more, ?_, ?_, ?_, ?_⟩
    · refine (Action.bind_pure_of_eq hquiet).trans ?_
      cases r <;> rfl
    · refine (Action.bind_pure_of_eq hhook).trans ?_
      cases r <;> rfl
    · have htold : ((Iterator.progress (.ok stream)).asked
          (landing (r.map fun p => (p.1, .ok p.2))).1).1
            = Stream.toldAfter stream.statements r := by
        cases stream <;> rcases r with e | ⟨_ | row, stream'⟩ <;> rfl
      rwa [htold]
    · rcases r with e | ⟨row, stream'⟩
      · cases stream <;> rfl
      · have hnext := progress_next hquiet
        rw [progress_observed, progress_observed] at hnext
        exact hnext

/-- An iterator that is closed. -/
theorem heard_closeIterator (it : Iterator) :
    Heard (fun _ => it.progress.closed) same
      fun o => (s.observed o).closeIterator (it.observed o) := by
  cases it with
  | error e => exact .of_silent (.pure ())
  | ok stream =>
    have hclosed : (fun _ => Progress.closed (Iterator.progress (.ok stream)))
        = fun (_ : Except Fault Unit) =>
          match stream with | .running o => [o.statement] | _ => [] := by
      cases stream <;> rfl
    rw [hclosed]
    exact Stream.heard_close h stream

/-- One task: both come to the same response, and the hook hears what it is to hear. -/
theorem heard_serve (its : List Iterator) (task : Task) : s.HeardServe its task := by
  cases task with
  | execute x =>
    intro w reports
    obtain ⟨r, w', more, hquiet, hhook, habout⟩ := heard_execute h x w reports
    rw [map_same] at hquiet hhook
    exact ⟨_, its, w', more, serve_execute hquiet, serve_execute hhook, habout, rfl⟩
  | batch xs =>
    intro w reports
    obtain ⟨r, w', more, hquiet, hhook, habout⟩ := heard_batch h xs w reports
    rw [map_same] at hquiet hhook
    exact ⟨_, its, w', more, serve_batch hquiet, serve_batch hhook, habout, rfl⟩
  | lazy x =>
    refine .of_idle (its ++ [x.toStatement.map .waiting]) (.ok .iterator)
      (fun w => ⟨w, fun o _ => ?_⟩) ?_
    · rw [serve, allObserved, allObserved, List.map_append]
      cases x.toStatement <;> rfl
    · rw [hears, allProgress, allProgress, List.map_append]
      cases x.toStatement <;> rfl
  | wait t =>
    exact .of_idle its (.ok .done) (fun w => ⟨{ w with clock := w.clock + t }, fun _ _ => rfl⟩) rfl
  | next i =>
    cases hit : its[i]? with
    | none =>
      refine .of_idle its (.error .noIndex) (fun w => ⟨w, fun o _ => ?_⟩) ?_
      · rw [serve, List.getElem?_map, hit]
        rfl
      · rw [hears, List.getElem?_map, hit]
        rfl
    | some it =>
      intro w reports
      obtain ⟨r, w', more, hquiet, hhook, habout, hprogress⟩ := heard_step h it w reports
      refine ⟨(landing r).1, its.set i (landing r).2, w', more, ?_, ?_, ?_, ?_⟩
      · rw [serve_next (getElem?_allObserved .nobody hit) hquiet, landing_seen, ← List.map_set]
      · rw [serve_next (getElem?_allObserved .hook hit) hhook, landing_seen, ← List.map_set]
      · rw [hears, getElem?_allProgress hit]
        exact habout
      · rw [hears, getElem?_allProgress hit, allProgress, List.map_set, hprogress]
  | close i =>
    cases hit : its[i]? with
    | none =>
      refine .of_idle its (.error .noIndex) (fun w => ⟨w, fun o _ => ?_⟩) ?_
      · rw [serve, List.getElem?_map, hit]
        rfl
      · rw [hears, List.getElem?_map, hit]
        rfl
    | some it =>
      intro w reports
      obtain ⟨r, w', more, hquiet, hhook, habout⟩ := heard_closeIterator h it w reports
      rw [map_same] at hquiet hhook
      refine ⟨r.map fun _ => .done, its.set i (.ok .ended), w', more, ?_, ?_, ?_, ?_⟩
      · rw [serve_close (getElem?_allObserved .nobody hit) hquiet, allObserved, ← set_ended]
      · rw [serve_close (getElem?_allObserved .hook hit) hhook, allObserved, ← set_ended]
      · rw [hears, getElem?_allProgress hit]
        exact habout
      · rw [hears, getElem?_allProgress hit, allProgress, List.map_set]
        rfl

theorem heard_serveAll (its : List Iterator) (tasks : List Task) (w : World σ)
    (reports : List Report) :
    ∃ responses its' w' more,
      (s.observed .nobody).serveAll (allObserved its .nobody) tasks w
        = (.ok (responses, allObserved its' .nobody), w') ∧
      (s.observed .hook).serveAll (allObserved its .hook) tasks (w.reporting reports)
        = (.ok (responses, allObserved its' .hook), w'.reporting (reports ++ more)) ∧
      About more (hearsAll (allProgress its) (tasks.zip responses)) := by
  induction tasks generalizing its w reports with
  | nil => exact ⟨[], its, w, [], rfl, by rw [List.append_nil]; rfl, rfl⟩
  | cons task rest ih =>
    obtain ⟨response, its₁, w₁, first, hquiet, hhook, habout, hprogress⟩ :=
      heard_serve h its task w reports
    obtain ⟨responses, its₂, w₂, second, hquiet', hhook', habout'⟩ :=
      ih its₁ w₁ (reports ++ first)
    refine ⟨response :: responses, its₂, w₂, first ++ second, ?_, ?_, ?_⟩
    · exact (Action.bind_of_ok hquiet).trans (Action.bind_pure_of_eq hquiet')
    · rw [← List.append_assoc]
      exact (Action.bind_of_ok hhook).trans (Action.bind_pure_of_eq hhook')
    · rw [List.zip_cons_cons, hearsAll, ← hprogress]
      exact habout.append habout'

end

/-- Tasks of a session with a hook and of one without. Both come to the same responses and leave the
same world, driver calls included, but for the reports that the hook is given: one for each
statement that is to be heard of, in order, with its query and fetch mode as they were given and the
secrets among its arguments masked. -/
structure Overheard (adapter : Adapter σ) (strict : Bool) (tasks : List Task) (w : World σ) :
    Prop where
  responses : (Session.mk adapter strict .hook).responses tasks w
    = (Session.mk adapter strict .nobody).responses tasks w
  heard : ∃ reports, (Session.mk adapter strict .hook).after tasks w
      = ((Session.mk adapter strict .nobody).after tasks w).reporting (w.reports ++ reports) ∧
    reports.map (·.statement)
      = (hearsAll [] (tasks.zip ((Session.mk adapter strict .nobody).responses tasks w))).map
          fun s => { s with arguments := s.arguments.map Secret.redact }

theorem overheard {adapter : Adapter σ} (h : adapter.AllSilent) (strict : Bool)
    (tasks : List Task) (w : World σ) : Overheard adapter strict tasks w := by
  obtain ⟨responses, its, w', more, hquiet, hhook, habout⟩ :=
    heard_serveAll (s := ⟨adapter, strict, .nobody⟩) h [] tasks w w.reports
  have hbare : (Session.mk adapter strict .nobody).serveAll [] tasks w
      = (.ok (responses, allObserved its .nobody), w') := hquiet
  have hhooked : (Session.mk adapter strict .hook).serveAll [] tasks w
      = (.ok (responses, allObserved its .hook), w'.reporting (w.reports ++ more)) := hhook
  refine ⟨?_, more, ?_, ?_⟩
  · rw [Session.responses, Session.responses, hbare, hhooked]
  · rw [after, after, hbare, hhooked]
  · rw [Session.responses, hbare]
    exact habout

end Session

/-- A hook hears of each execution once and changes nothing: of each statement that is executed, of
each statement of a batch in its order, also where the batch fails, and of each stream that was
started, when it ends. So it is for any tasks over both adapters, whatever the driver answers. -/
theorem executions_are_heard (server : Server) (installed : Bool) (slow : Int) (strict : Bool)
    (tasks : List Session.Task) (w : World Wire) :
    Session.Overheard (.sqlite server slow) strict tasks w ∧
      Session.Overheard (.postgres server installed slow) strict tasks w :=
  ⟨Session.overheard (Adapter.allSilent_sqlite server slow) strict tasks w,
    Session.overheard (Adapter.allSilent_postgres server installed slow) strict tasks w⟩

/-- A batch of two whose second statement fails is heard of, and so is a stream that is closed after
its first row. One that was not started is not. -/
example (first second third : Statement) (fault : Fault) (row : Entries) :
    Session.hearsAll []
      [(.batch [.statement first, .statement second], .error fault),
       (.lazy (.statement third), .ok .iterator), (.lazy (.statement first), .ok .iterator),
       (.next 0, .ok (.row (some row))), (.close 1, .ok .done), (.close 0, .ok .done)]
      = [first, second, third] := rfl

end Querywright
