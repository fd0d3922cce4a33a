/-
  What becomes of the failures of a driver in the operations of an adapter: running a statement,
  fetching rows one by one as far as wanted, and beginning and ending a transaction.

  * `Operation.fetchFault?`: the failure of the fetches that an operation makes on a cursor.
  * `Surfaces`: every failure reaches the caller. It is reworded as a fault of the adapter exactly
    when the adapter guards the call; a failing fetch never is.
  * `driver_failures_surface`: the operations of both adapters are so.
-/
import Querywright.Proofs.Adapter.Surfacing
import Querywright.Proofs.Session.Recording

namespace Querywright

open Wire (Met Server met)

variable {α β γ : Type} {server : Server} {reworded : Wire.Call → DriverFault → Bool}

/-! ## Fetches -/

/-- The failure of a driver that a step ends with. -/
def driverFault? : Except Fault α → Option DriverFault
  | .error (.driver d) => some d
  | _ => none

/-- A step that fails only by what it was asked for, or because the driver does. -/
def Fetches (r : Except Fault α) : Prop := ∀ f, r = .error f → f.isOwn = true ∨ ∃ d, f = .driver d

theorem fetches_ok (x : α) : Fetches (.ok x) := failsWith_ok x

theorem Fetches.of_owns {r : Except Fault α} (h : Owns r) : Fetches r := fun f hf => .inl (h f hf)

theorem Fetches.bind {r : Except Fault α} {f : α → Except Fault β} (h : Fetches r)
    (hnext : ∀ x, Fetches (f x)) : Fetches (r >>= f) :=
  FailsWith.bind h hnext

theorem Fetches.map {r : Except Fault α} (h : Fetches r) (f : α → β) : Fetches (r.map f) :=
  FailsWith.map h f

namespace Cursor

/-- Up to `n` rows, one by one. -/
def pulls : Nat → Cursor → Except Fault (List Entries)
  | 0, _ => .ok []
  | n + 1, c => do
    match ← c.pull with
    | none => return []
    | some row => return row :: (← pulls n c.advance)

theorem fetches_finish (c : Cursor) : Fetches c.finish := by
  unfold finish
  split
  · exact fetches_ok ()
  · rintro _ ⟨⟩
    exact .inr ⟨_, rfl⟩

theorem fetches_pull (c : Cursor) : Fetches c.pull := by
  unfold pull
  split
  · exact (Fetches.of_owns (Row.owns_shape _ _)).map _
  · exact c.fetches_finish.map _

theorem fetches_drain (c : Cursor) : Fetches c.drain :=
  c.fetches_finish.bind fun _ => .of_owns (Owns.mapM (Row.owns_shape _) _)

theorem fetches_pulls (n : Nat) (c : Cursor) : Fetches (c.pulls n) := by
  induction n generalizing c with
  | zero => exact fetches_ok []
  | succ n ih =>
    refine c.fetches_pull.bind fun row => ?_
    cases row with
    | none => exact fetches_ok []
    | some row => exact (ih c.advance).bind fun _ => fetches_ok _

end Cursor

theorem Adapter.fetches_collect (mode : FetchMode) (c : Cursor) : Fetches (collect mode c) := by
  cases mode with
  | none => exact fetches_ok _
  | one => exact c.fetches_pull.map _
  | all => exact c.fetches_drain.map _

theorem Adapter.Postgres.fetches_collectColumns (mode : FetchMode) (c : Cursor) :
    Fetches (collectColumns mode c) := by
  unfold collectColumns
  split
  · cases mode <;> exact fetches_ok _
  · exact fetches_collect mode c

/-! ## What reaches the caller -/

/-- What an operation does with the failures of the driver, from what it meets and how its fetches
on a cursor fail. -/
structure Surfaces (reworded : Wire.Call → DriverFault → Bool) (fails : Cursor → Option DriverFault)
    (m : List Met) (r : Except Fault α) : Prop where
  /-- A call that fails ends it: its failure is reworded, or goes through as it is. -/
  call : ∀ call d, .failed call d ∈ m → ∃ f, r = .error f ∧ f.Tells (reworded call d) d
  /-- A fetch that fails ends it, and goes through as it is. -/
  fetch : ∀ c d, m = [.executed c] → fails c = some d → r = .error (.driver d)
  /-- Any other fault has nothing to do with the driver. -/
  origin : ∀ f, r = .error f → f.Local ∨
    (∃ call d, .failed call d ∈ m ∧ f.Tells (reworded call d) d) ∨
    ∃ c d, m = [.executed c] ∧ fails c = some d ∧ f = .driver d

variable {fails : Cursor → Option DriverFault}

namespace Surfaces

/-- Nothing fails but the operation itself. -/
theorem calm {r : Except Fault α} {m : List Met} (hmet : ∀ call d, .failed call d ∉ m)
    (hfetch : ∀ c, m = [.executed c] → fails c = none) (hr : ∀ f, r = .error f → f.Local) :
    Surfaces reworded fails m r where
  call call d hmem := absurd hmem (hmet call d)
  fetch c d hm hc := by cases (hfetch c hm).symm.trans hc
  origin f hf := .inl (hr f hf)

/-- A call fails, and nothing is met after it. -/
theorem failed {call : Wire.Call} {d : DriverFault} {f : Fault} (h : f.Tells (reworded call d) d)
    (before : List Met) (hbefore : ∀ call d, .failed call d ∉ before) :
    Surfaces (α := α) reworded fails (before ++ [.failed call d]) (.error f) where
  call call' d' hmem := by
    rcases List.mem_append.1 hmem with hmem | hmem
    · exact absurd hmem (hbefore call' d')
    · cases List.mem_singleton.1 hmem
      exact ⟨f, rfl, h⟩
  fetch c d' hm := by
    have hlast := congrArg List.getLast? hm
    rw [List.getLast?_concat] at hlast
    cases hlast
  origin := by
    rintro _ ⟨⟩
    exact .inr (.inl ⟨call, d, List.mem_append_right _ List.mem_cons_self, h⟩)

/-- A fetch fails. -/
theorem unfetched {c : Cursor} {d : DriverFault} (h : fails c = some d) :
    Surfaces (α := α) reworded fails [.executed c] (.error (.driver d)) where
  call call d' hmem := by cases List.mem_singleton.1 hmem
  fetch c' d' hm hc := by
    cases hm
    cases h.symm.trans hc
    rfl
  origin := by
    rintro _ ⟨⟩
    exact .inr (.inr ⟨c, d, rfl, h, rfl⟩)

/-- No transaction is behind it. -/
theorem ne_transaction {r : Except Fault α} {m : List Met} (h : Surfaces reworded fails m r)
    (cause : TransactionFault) : r ≠ .error (.transaction cause) := by
  intro hr
  rcases h.origin _ hr with hlocal | ⟨call, d, -, htells⟩ | ⟨c, d, -, -, hdriver⟩
  · exact hlocal.transaction cause rfl
  · cases htells.carries with
    | inl hdriver => cases hdriver
    | inr hreason => cases hreason
  · cases hdriver

theorem of_ends {r : Except Fault α} {m : List Met} (h : EndsIn reworded (fun _ => []) r m) :
    Surfaces reworded fails m r := by
  cases h with
  | done x => exact calm (fun _ _ => List.not_mem_nil) nofun nofun
  | own hlocal =>
    refine calm (fun _ _ => List.not_mem_nil) nofun ?_
    rintro _ ⟨⟩
    exact hlocal
  | failed htells => exact failed htells [] fun _ _ => List.not_mem_nil

end Surfaces

/-- All runs of the action do so. -/
def Surfacing (server : Server) (reworded : Wire.Call → DriverFault → Bool)
    (fails : Cursor → Option DriverFault) (a : Action Wire α) : Prop :=
  ∀ w r w', a w = (r, w') → ∃ events, w'.peer.history = w.peer.history ++ events ∧
    Surfaces reworded fails (met server w.peer.history events) r

theorem Surfacing.of_plainly {a : Action Wire α} (h : Plainly server reworded a) :
    Surfacing server reworded fails a := by
  intro w r w' ha
  obtain ⟨events, hevents, hends⟩ := h w r w' ha
  exact ⟨events, hevents, .of_ends hends⟩

theorem Surfacing.bind {b : Action Wire β} {f : β → Action Wire α} (h : Plainly server reworded b)
    (hnext : ∀ x, Surfacing server reworded fails (f x)) :
    Surfacing server reworded fails (b >>= f) := by
  intro w r w' hall
  obtain ⟨events, hevents, hends⟩ | ⟨x, w₁, first, hfirst, hm, hrest⟩ := h.bind_cases hall
  · exact ⟨events, hevents, .of_ends (hends _)⟩
  · obtain ⟨second, hsecond, hsurfaces⟩ := hnext x _ _ _ hrest
    refine ⟨first ++ second, by rw [hsecond, hfirst, List.append_assoc], ?_⟩
    rwa [Wire.met_append, hm, List.nil_append, ← hfirst]

theorem Surfaces.map {r : Except Fault α} {m : List Met} (h : Surfaces reworded fails m r)
    (f : α → β) : Surfaces reworded fails m (r.map f) := by
  cases r with
  | error e =>
    refine ⟨fun call d hmem => ?_, fun c d hm hc => ?_, ?_⟩
    · obtain ⟨_, ⟨⟩, htells⟩ := h.call call d hmem
      exact ⟨e, rfl, htells⟩
    · cases h.fetch c d hm hc
      rfl
    · rintro _ ⟨⟩
      exact h.origin e rfl
  | ok x =>
    refine ⟨fun call d hmem => ?_, fun c d hm hc => ?_, nofun⟩
    · obtain ⟨_, ⟨⟩, -⟩ := h.call call d hmem
    · cases h.fetch c d hm hc

theorem Surfacing.map {a : Action Wire α} (h : Surfacing server reworded fails a) (f : α → β) :
    Surfacing server reworded fails (a >>= fun x => pure (f x)) := by
  intro w r w' hall
  rcases ha : a w with ⟨r₁, w₁⟩
  obtain ⟨events, hevents, hsurfaces⟩ := h w _ _ ha
  cases (Action.bind_pure_of_eq ha).symm.trans hall
  exact ⟨events, hevents, hsurfaces.map f⟩

/-! ## What follows an executed statement -/

/-- How what follows a statement ends: as its fetches fail, in its own way after fetches that do
not, or at a call that fails. -/
inductive ReadsIn (reworded : Wire.Call → DriverFault → Bool) (reads : Except Fault γ) :
    Except Fault α → List Met → Prop where
  | fault {f : Fault} (h : reads = .error f) : ReadsIn reworded reads (.error f) []
  | ended {x : γ} {r : Except Fault α} (h : reads = .ok x) (hr : ∀ f, r = .error f → f.Local) :
    ReadsIn reworded reads r []
  | failed {call : Wire.Call} {d : DriverFault} {f : Fault} (h : f.Tells (reworded call d) d) :
    ReadsIn reworded reads (.error f) [.failed call d]

/-- What follows a statement fetches what the step says. -/
def Reads (server : Server) (reworded : Wire.Call → DriverFault → Bool) (reads : Except Fault γ)
    (a : Action Wire α) : Prop :=
  ∀ w r w', a w = (r, w') → ∃ events, w'.peer.history = w.peer.history ++ events ∧
    ReadsIn reworded reads r (met server w.peer.history events)

/-- Fetches first and the rest afterwards. -/
theorem Reads.of_tail {reads : Except Fault γ} {tail : γ → Action Wire α}
    (h : ∀ x, Plainly server reworded (tail x)) :
    Reads server reworded reads (Action.ofExcept reads >>= tail) := by
  intro w r w' hall
  have hfetched : Action.ofExcept reads w = (reads, w) := rfl
  cases reads with
  | error f =>
    cases (Action.bind_of_error hfetched).symm.trans hall
    exact ⟨[], (List.append_nil _).symm, .fault rfl⟩
  | ok x =>
    obtain ⟨events, hevents, hends⟩ := h x w r w' ((Action.bind_of_ok hfetched).symm.trans hall)
    refine ⟨events, hevents, ?_⟩
    generalize met server w.peer.history events = m at hends
    cases hends with
    | done y => exact .ended rfl nofun
    | own hlocal =>
      refine .ended rfl ?_
      rintro _ ⟨⟩
      exact hlocal
    | failed htells => exact .failed htells

/-- What is met at a statement and after it. -/
theorem ReadsIn.surfaces {reads : Cursor → Except Fault γ} {c : Cursor} {r : Except Fault α}
    {m : List Met} (h : ReadsIn reworded (reads c) r m) (hreads : ∀ c, Fetches (reads c)) :
    Surfaces reworded (fun c => driverFault? (reads c)) ([.executed c] ++ m) r := by
  have hexecuted : ∀ call d, Met.failed call d ∉ [Met.executed c] := by
    intro call d hmem
    cases List.mem_singleton.1 hmem
  cases h with
  | failed htells => exact .failed htells [_] hexecuted
  | ended hok hr =>
    refine .calm hexecuted ?_ hr
    rintro _ ⟨⟩
    rw [hok]
    rfl
  | @fault f hfault =>
    rcases hreads c f hfault with hown | ⟨d, rfl⟩
    · refine .calm hexecuted ?_ ?_
      · rintro _ ⟨⟩
        rw [hfault]
        cases f <;> first | rfl | cases hown
      · rintro _ ⟨⟩
        exact Fault.local_of_isOwn hown
    · exact .unfetched (by rw [hfault]; rfl)

/-- An executed statement with what follows it. -/
theorem Surfacing.of_reads {start : Action Wire β} {cursor : β → Cursor}
    {rest : β → Action Wire α} {reads : Cursor → Except Fault γ}
    (hstart : Ends server reworded (fun x => [.executed (cursor x)]) start)
    (hreads : ∀ c, Fetches (reads c))
    (hrest : ∀ x, Reads server reworded (reads (cursor x)) (rest x)) :
    Surfacing server reworded (fun c => driverFault? (reads c)) (start >>= rest) := by
  intro w r w' hall
  obtain ⟨events, hevents, hends⟩ | ⟨x, w₁, first, hfirst, hm, hafter⟩ := hstart.bind_cases hall
  · exact ⟨events, hevents, .of_ends (hends _)⟩
  · obtain ⟨second, hsecond, hlast⟩ := hrest x _ _ _ hafter
    refine ⟨first ++ second, by rw [hsecond, hfirst, List.append_assoc], ?_⟩
    rw [Wire.met_append, hm, ← hfirst]
    exact hlast.surfaces hreads

/-! ## Streams -/

/-- What closing the cursor comes to. -/
def Cursor.closing (c : Cursor) (server : Server) (w : World Wire) : Except Fault Unit :=
  (server w.peer.history ⟨c.connection, .closeCursor⟩).outcome.map fun _ => ()

theorem closeCursor_apply {a : Adapter Wire} (hclose : ∀ c, a.closeCursor c = do
      let _ ← Wire.send server c.connection .closeCursor) (c : Cursor) (w : World Wire) :
    ∃ w', w'.peer.history = w.peer.history ++ [⟨c.connection, .closeCursor⟩] ∧
      a.closeCursor c w = (c.closing server w, w') := by
  rw [hclose]
  exact ⟨_, rfl, Action.bind_pure_of_eq (Wire.send_apply server c.connection .closeCursor w)⟩

namespace Stream

variable {a : Adapter Wire}

/-- Take rows from a stream and close it. -/
def takeClosed (session : Session Wire) (n : Nat) (s : Stream) : Action Wire Unit := do
  let (_, _, rest) ← take session n s
  close session rest

/-- A stream that ends closes its cursor, and ends as it did if closing does not fail. -/
theorem finish_ends (hclose : ∀ c, a.closeCursor c = do
      let _ ← Wire.send server c.connection .closeCursor)
    (o : OpenStream) (r : Except Fault α) (w : World Wire) :
    ∃ w', w'.peer.history = w.peer.history ++ [⟨o.cursor.connection, .closeCursor⟩] ∧
      finish a o (Action.ofExcept r) w = (o.cursor.closing server w >>= fun _ => r, w') := by
  obtain ⟨w₁, hhistory, hclosed⟩ := closeCursor_apply hclose o.cursor w
  have hended : Action.always (Action.ofExcept r) (a.closeCursor o.cursor) w
      = (o.cursor.closing server w >>= fun _ => r, w₁) := by
    have hsame : Action.ofExcept r w = (r, w) := rfl
    rw [Action.always_apply, hsame, hclosed]
  obtain ⟨w', htold, hpeer⟩ := tellAll_peer o.observer (Journal.millis (w₁.clock - o.began))
    [o.statement] w₁
  have hlast : o.observer.conclude o.began [o.statement] w₁ = (.ok (), w') := htold
  refine ⟨w', (congrArg Wire.history hpeer).trans hhistory, ?_⟩
  rw [finish, Action.always_apply, hended, hlast, ok_bind]

/-- What follows the end of a stream, when it makes no call. -/
theorem finish_reads (hclose : ∀ c, a.closeCursor c = do
      let _ ← Wire.send server c.connection .closeCursor)
    (hbare : ∀ d, reworded .closeCursor d = false) (o : OpenStream)
    {x : Except Fault β} {f : β → Action Wire α} {reads : Except Fault γ} {r : Except Fault α}
    (hf : ∀ w, (Action.ofExcept x >>= f) w = (r, w)) (hr : ReadsIn reworded reads r []) :
    Reads server reworded reads (finish a o (Action.ofExcept x) >>= f) := by
  intro w r' w' hall
  obtain ⟨w₁, hhistory, hfinish⟩ := finish_ends hclose o x w
  cases hfailure : (server w.peer.history ⟨o.cursor.connection, .closeCursor⟩).failure with
  | some d =>
    rw [Cursor.closing, Wire.Reply.outcome_of_failed hfailure, Except.map, error_bind] at hfinish
    cases (Action.bind_of_error hfinish).symm.trans hall
    refine ⟨[⟨o.cursor.connection, .closeCursor⟩], hhistory, ?_⟩
    rw [Wire.met_singleton, Met.of_failed hfailure rfl]
    refine .failed ?_
    rw [hbare d]
    exact rfl
  | none =>
    rw [Cursor.closing, Wire.Reply.outcome_of_answered hfailure, Except.map, ok_bind] at hfinish
    have hsame : (finish a o (Action.ofExcept x) >>= f) w = (Action.ofExcept x >>= f) w₁ := by
      rw [Action.bind_apply, Action.bind_apply, hfinish]
      rfl
    cases (hsame.trans (hf w₁)).symm.trans hall
    refine ⟨[⟨o.cursor.connection, .closeCursor⟩], hhistory, ?_⟩
    rw [Wire.met_singleton, Met.of_answered hfailure rfl]
    exact hr

theorem takeClosed_succ (session : Session Wire) (n : Nat) (s : Stream) :
    takeClosed session (n + 1) s = next session s >>= fun x => match x with
      | (none, rest) => close session rest
      | (some _, rest) => takeClosed session n rest := by
  rw [takeClosed, take, bind_assoc]
  refine bind_congr fun x => ?_
  obtain ⟨row, rest⟩ := x
  cases row with
  | none => exact pure_bind _ _
  | some row =>
    rw [bind_assoc]
    exact bind_congr fun taken => pure_bind _ _

/-- Up to `n` rows from a stream that has started are what its cursor gives. -/
theorem takeClosed_reads (hclose : ∀ c, a.closeCursor c = do
      let _ ← Wire.send server c.connection .closeCursor)
    (hbare : ∀ d, reworded .closeCursor d = false) (n : Nat) (o : OpenStream) :
    Reads server reworded (o.cursor.pulls n) (takeClosed { adapter := a } n (.running o)) := by
  induction n generalizing o with
  | zero =>
    have hended : takeClosed { adapter := a } 0 (.running o)
        = (finish a o (Action.ofExcept (.ok ())) >>= pure) := (bind_pure _).symm
    rw [hended]
    exact finish_reads hclose hbare o (fun _ => rfl) (.ended rfl nofun)
  | succ n ih =>
    rw [takeClosed_succ, next, pull, Cursor.pulls]
    cases o.cursor.pull with
    | error f => exact finish_reads hclose hbare o (fun _ => rfl) (.fault rfl)
    | ok row =>
      cases row with
      | none => exact finish_reads hclose hbare o (fun _ => rfl) (.ended rfl nofun)
      | some row =>
        intro w r w' hall
        obtain ⟨events, hevents, hreads⟩ :=
          ih { o with cursor := o.cursor.advance } w r w' hall
        refine ⟨events, hevents, ?_⟩
        generalize met server w.peer.history events = m at hreads
        cases hreads with
        | fault h => exact .fault (by rw [ok_bind]; dsimp only; rw [h]; rfl)
        | ended h hr => exact .ended (by rw [ok_bind]; dsimp only; rw [h]; rfl) hr
        | failed h => exact .failed h

theorem takeClosed_surfacing
    (hstream : ∀ s, Ends server reworded (fun c => [.executed c]) (a.stream s))
    (hclose : ∀ c, a.closeCursor c = do
      let _ ← Wire.send server c.connection .closeCursor)
    (hbare : ∀ d, reworded .closeCursor d = false) (s : Statement) (n : Nat) :
    Surfacing server reworded (fun c => driverFault? (c.pulls n))
      (takeClosed { adapter := a } n (.waiting s)) := by
  cases n with
  | zero => exact .of_plainly (plainly_pure ())
  | succ n =>
    let opened (began : Journal.Micros) (cursor : Cursor) : OpenStream :=
      { statement := s, observer := .nobody, began, cursor }
    have hstarted : takeClosed { adapter := a } (n + 1) (.waiting s) = (do
        let began ← Action.now
        let cursor ← Action.onFault (a.stream s) fun _ => Observer.conclude .nobody began [s]
        takeClosed { adapter := a } (n + 1) (.running (opened began cursor))) := by
      rw [takeClosed_succ, next, bind_assoc, start, bind_assoc]
      refine bind_congr fun began => ?_
      rw [bind_assoc]
      refine bind_congr fun cursor => ?_
      rw [pure_bind, takeClosed_succ]
      rfl
    rw [hstarted]
    refine Surfacing.bind plainly_now fun began => ?_
    have hquiet : Action.onFault (a.stream s) (fun _ => Observer.conclude .nobody began [s])
        = a.stream s := by
      funext w
      rw [Action.onFault]
      rcases a.stream s w with ⟨_ | _, _⟩ <;> rfl
    rw [hquiet]
    exact .of_reads (hstream s) (Cursor.fetches_pulls _) fun cursor =>
      takeClosed_reads hclose hbare (n + 1) (opened began cursor)

end Stream

/-! ## Operations -/

/-- What is asked of an adapter. Rows are fetched one by one, up to as many as are wanted, and then
the cursor is closed. -/
inductive Operation where
  | run (s : Statement)
  | rows (s : Statement) (n : Nat)
  | begin
  | commit
  | rollback

namespace Operation

/-- Do it. -/
def perform (a : Adapter Wire) : Operation → Action Wire Unit
  | run s => do
    let _ ← a.run s
  | rows s n => Stream.takeClosed { adapter := a } n (.waiting s)
  | begin => a.begin
  | commit => a.commit
  | rollback => a.rollback

/-- The failure of the fetches that it makes on a cursor, from how the adapter collects rows. -/
def fetchFault? (collects : FetchMode → Cursor → Except Fault Fetched) :
    Operation → Cursor → Option DriverFault
  | run s, c => driverFault? (collects s.fetch c)
  | rows _ n, c => driverFault? (c.pulls n)
  | _, _ => none

variable {installed : Bool} {slow : Int}

theorem sqlite_surfacing (op : Operation) :
    Surfacing server Adapter.Sqlite.reworded (op.fetchFault? Adapter.collect)
      (op.perform (.sqlite server slow)) := by
  cases op with
  | run s =>
    refine Surfacing.map ?_ fun _ => ()
    refine Surfacing.bind plainly_now fun began => ?_
    refine .of_reads (Adapter.Sqlite.ends_start s) (Adapter.fetches_collect s.fetch) fun p =>
      .of_tail fun collected => ?_
    split
    · exact plainly_throw (Fault.local_of_isOwn rfl)
    · exact (plainly_ofExcept (Statement.owns_command _)).bind fun _ =>
        plainly_now.bind fun _ => plainly_pure _
  | rows s n =>
    refine Stream.takeClosed_surfacing (fun s => ?_) (fun c => rfl) (fun _ => rfl) s n
    exact (Adapter.Sqlite.ends_start s).map (fun p => p.2) fun _ => rfl
  | begin => exact .of_plainly (Adapter.Sqlite.plainly_onConnection rfl rfl fun _ => rfl)
  | commit => exact .of_plainly (Adapter.Sqlite.plainly_onConnection rfl rfl fun _ => rfl)
  | rollback => exact .of_plainly (Adapter.Sqlite.plainly_onConnection rfl rfl fun _ => rfl)

theorem postgres_surfacing (op : Operation) :
    Surfacing server Adapter.Postgres.reworded (op.fetchFault? Adapter.Postgres.collectColumns)
      (op.perform (.postgres server installed slow)) := by
  cases op with
  | run s =>
    refine Surfacing.map ?_ fun _ => ()
    refine Surfacing.bind plainly_now fun began => ?_
    refine .of_reads (Adapter.Postgres.ends_start s)
      (Adapter.Postgres.fetches_collectColumns s.fetch) fun p => .of_tail fun collected => ?_
    exact (plainly_ofExcept (Statement.owns_command _)).bind fun _ =>
      plainly_now.bind fun _ => plainly_pure _
  | rows s n =>
    refine Stream.takeClosed_surfacing (fun s => ?_) (fun c => rfl) (fun _ => rfl) s n
    exact (Adapter.Postgres.ends_start s).map (fun p => p.2) fun _ => rfl
  | begin => exact .of_plainly Adapter.Postgres.plainly_begin
  | commit => exact .of_plainly (Adapter.Postgres.plainly_onConnection rfl rfl fun _ => rfl)
  | rollback => exact .of_plainly (Adapter.Postgres.plainly_onConnection rfl rfl fun _ => rfl)

end Operation

/-- In the operations of both adapters every failure of the driver reaches the caller. The SQLite
adapter rewords the documented failures of statements, the PostgreSQL adapter those of statements
and of opening a connection again; all others go through as they are, those of fetches too. -/
theorem driver_failures_surface (server : Server) (installed : Bool) (slow : Int) (op : Operation)
    (w : World Wire) :
    (let done := op.perform (.sqlite server slow) w
      ∃ events, done.2.peer.history = w.peer.history ++ events ∧
        Surfaces Adapter.Sqlite.reworded (op.fetchFault? Adapter.collect)
          (met server w.peer.history events) done.1) ∧
    (let done := op.perform (.postgres server installed slow) w
      ∃ events, done.2.peer.history = w.peer.history ++ events ∧
        Surfaces Adapter.Postgres.reworded (op.fetchFault? Adapter.Postgres.collectColumns)
          (met server w.peer.history events) done.1) :=
  ⟨op.sqlite_surfacing w _ _ rfl, op.postgres_surfacing w _ _ rfl⟩

/-- A database that is locked. -/
def locked : Server := fun _ event =>
  match event.call with
  | .direct _ => { failure := some (.operational "database is locked") }
  | _ => {}

/-- A transaction that cannot be begun is no fault of the adapter. -/
theorem failed_begin_is_bare :
    let w : World Wire := { peer := { opened := 1, held := some ⟨0, { url := .text "app.db" }⟩ } }
    ∃ f, (Operation.begin.perform (.sqlite locked 0) w).1 = .error f ∧
      f = .driver (.operational "database is locked") ∧ f.ofAdapter = false ∧ f.reason? = none :=
  ⟨_, rfl, rfl, rfl, rfl⟩

end Querywright
