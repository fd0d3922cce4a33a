/-
  Streams beside collected results.

  * `Cursor.delivered`, `Cursor.last`: the rows that a cursor gives one by one, and what comes after
    them. Collecting gives the same rows when that is the end (`Cursor.drain_eq_ok`).
  * `Stream.ask`, `Stream.askAll`: a caller asks a stream for rows or closes it.
  * `Stream.ask_row`, `Stream.ask_last`, `Stream.ask_close_running`: one ask of a stream that has
    started; `askAll_reading`, `askAll_closed`, `askAll_exhausted`: many of them.
  * `Adapter.CollectsAll`: what collecting all rows has to do with running for a stream.
  * `streams_give_collected_rows`: over both adapters a stream gives the rows that are collected, as
    far as it is read, and closes its cursor once.
-/
import Querywright.Proofs.Adapter.Failures
import Querywright.Proofs.Session.Tasks

namespace Querywright

open Wire (Server)

/-! ## The rows of a cursor -/

/-- The maps of rows, up to the first row that has none. -/
def Row.shapes (columns : List Value) : List Row → List Entries
  | [] => []
  | row :: rest =>
    match row.shape columns with
    | .ok entries => entries :: shapes columns rest
    | .error _ => []

theorem Row.shapes_cons (columns : List Value) (row : Row) (rest : List Row) :
    shapes columns (row :: rest) = match row.shape columns with
      | .ok entries => entries :: shapes columns rest
      | .error _ => [] := rfl

theorem Row.shapes_of_mapM {columns : List Value} {rows : List Row} {maps : List Entries}
    (h : rows.mapM (Row.shape columns) = .ok maps) : shapes columns rows = maps := by
  induction rows generalizing maps with
  | nil =>
    cases h
    rfl
  | cons row rest ih =>
    rw [List.mapM_cons] at h
    simp only [bind_eq_ok, pure_eq_ok] at h
    obtain ⟨first, hfirst, more, hmore, rfl⟩ := h
    rw [shapes_cons, hfirst, ih hmore]

namespace Cursor

variable {c : Cursor} {row : Entries} {rows : List Entries}

/-- The rows that are given one by one. -/
def delivered (c : Cursor) : List Entries := Row.shapes c.columns c.rows

/-- What comes after the last of them: a row without a map, a failing fetch, or the end. -/
def last (c : Cursor) : Except Fault Unit := do
  let _ ← c.rows.mapM (Row.shape c.columns)
  c.finish

/-- Rows that all have maps are all given. -/
theorem delivered_of_mapM (h : c.rows.mapM (Row.shape c.columns) = .ok rows) :
    c.delivered = rows ∧ c.last = c.finish :=
  ⟨Row.shapes_of_mapM h, by rw [last, h, ok_bind]⟩

/-- All rows are collected exactly when they are all given and the end is reached. -/
theorem drain_eq_ok : c.drain = .ok rows ↔ c.delivered = rows ∧ c.last = .ok () := by
  rw [drain, last, bind_eq_ok, bind_eq_ok]
  constructor
  · rintro ⟨_, hfinish, hmaps⟩
    exact ⟨Row.shapes_of_mapM hmaps, rows, hmaps, hfinish⟩
  · rintro ⟨hdelivered, maps, hmaps, hfinish⟩
    refine ⟨(), hfinish, ?_⟩
    rw [hmaps, ← hdelivered, delivered, Row.shapes_of_mapM hmaps]

/-- A row that is given is the next one. -/
theorem pull_of_delivered (h : c.delivered = row :: rows) :
    c.pull = .ok (some row) ∧ c.advance.delivered = rows ∧ c.advance.last = c.last := by
  rw [delivered] at h
  cases hrows : c.rows with
  | nil =>
    rw [hrows] at h
    cases h
  | cons first rest =>
    rw [hrows, Row.shapes_cons] at h
    cases hshape : first.shape c.columns with
    | error e =>
      rw [hshape] at h
      cases h
    | ok entries =>
      rw [hshape] at h
      cases h
      refine ⟨?_, ?_, ?_⟩
      · rw [pull, hrows]
        dsimp only
        rw [hshape]
        rfl
      · rw [delivered, advance, hrows]
        rfl
      · have htail : c.advance.rows = rest := by rw [advance, hrows, List.tail_cons]
        rw [last, last, htail, hrows, List.mapM_cons, hshape, ok_bind, bind_assoc]
        rfl

/-- Where no row is given the cursor ends. -/
theorem pull_of_delivered_nil (h : c.delivered = []) : c.pull = c.last.map fun _ => none := by
  rw [delivered] at h
  rw [pull, last]
  cases hrows : c.rows with
  | nil =>
    rw [List.mapM_nil]
    rfl
  | cons first rest =>
    rw [hrows, Row.shapes_cons] at h
    cases hshape : first.shape c.columns with
    | ok entries =>
      rw [hshape] at h
      cases h
    | error e =>
      dsimp only
      rw [List.mapM_cons, hshape]
      rfl

end Cursor

/-! ## Asking a stream -/

namespace Stream

/-- What a caller asks of a stream: its next row, or to close. -/
inductive Ask where
  | next
  | close
  deriving DecidableEq

/-- Asks that go no further than a number of rows, that close the stream within them, or that go
beyond them. -/
theorem Ask.reading_or_ending (n : Nat) (asks : List Ask) :
    (∃ k ≤ n, asks = List.replicate k .next) ∨
    (∃ k ≤ n, ∃ rest, asks = List.replicate k .next ++ .close :: rest) ∨
    ∃ rest, asks = List.replicate (n + 1) .next ++ rest := by
  induction n generalizing asks with
  | zero =>
    match asks with
    | [] => exact .inl ⟨0, Nat.le_refl 0, rfl⟩
    | .close :: rest => exact .inr (.inl ⟨0, Nat.le_refl 0, rest, rfl⟩)
    | .next :: rest => exact .inr (.inr ⟨rest, rfl⟩)
  | succ n ih =>
    match asks with
    | [] => exact .inl ⟨0, Nat.zero_le _, rfl⟩
    | .close :: rest => exact .inr (.inl ⟨0, Nat.zero_le _, rest, rfl⟩)
    | .next :: asks =>
      obtain ⟨k, hk, rfl⟩ | ⟨k, hk, rest, rfl⟩ | ⟨rest, rfl⟩ := ih asks
      · exact .inl ⟨k + 1, Nat.succ_le_succ hk, rfl⟩
      · exact .inr (.inl ⟨k + 1, Nat.succ_le_succ hk, rest, rfl⟩)
      · exact .inr (.inr ⟨rest, rfl⟩)

section

variable {σ : Type}

/-- The answer to an ask, and the stream after it. A stream ends with its first fault, and when it
is closed. -/
def ask (session : Session σ) (s : Stream) :
    Ask → Action σ (Except Fault (Option Entries) × Stream)
  | .next => do
    match ← Action.attempt (next session s) with
    | .ok (row, s) => return (.ok row, s)
    | .error e => return (.error e, .ended)
  | .close => do return ((← Action.attempt (close session s)).map fun _ => none, .ended)

/-- The answers to asks one after the other. -/
def askAll (session : Session σ) (s : Stream) :
    List Ask → Action σ (List (Except Fault (Option Entries)) × Stream)
  | [] => return ([], s)
  | a :: asks => do
    let (answer, s) ← ask session s a
    let (answers, s) ← askAll session s asks
    return (answer :: answers, s)

variable {session : Session σ} {s s₁ s₂ : Stream} {w w₁ w₂ : World σ} {asks : List Ask}
  {answers : List (Except Fault (Option Entries))}

theorem ask_next (session : Session σ) (s : Stream) (w : World σ) :
    ask session s .next w = match next session s w with
      | (.ok (row, s), w) => (.ok (.ok row, s), w)
      | (.error e, w) => (.ok (.error e, .ended), w) := by
  have hattempt : Action.attempt (next session s) w
      = (.ok (next session s w).1, (next session s w).2) := rfl
  rw [ask, Action.bind_of_ok hattempt]
  rcases next session s w with ⟨_ | ⟨row, s⟩, w⟩ <;> rfl

theorem ask_close (session : Session σ) (s : Stream) (w : World σ) :
    ask session s .close w
      = (.ok ((close session s w).1.map fun _ => none, .ended), (close session s w).2) := rfl

theorem askAll_cons {a : Ask} {answer : Except Fault (Option Entries)}
    (h : ask session s a w = (.ok (answer, s₁), w₁))
    (hrest : askAll session s₁ asks w₁ = (.ok (answers, s₂), w₂)) :
    askAll session s (a :: asks) w = (.ok (answer :: answers, s₂), w₂) := by
  rw [askAll, Action.bind_of_ok h]
  exact Action.bind_of_ok hrest

theorem askAll_append {first : List Ask} {given : List (Except Fault (Option Entries))}
    (h : askAll session s first w = (.ok (given, s₁), w₁))
    (hrest : askAll session s₁ asks w₁ = (.ok (answers, s₂), w₂)) :
    askAll session s (first ++ asks) w = (.ok (given ++ answers, s₂), w₂) := by
  induction first generalizing s w given with
  | nil =>
    cases h
    exact hrest
  | cons a first ih =>
    obtain ⟨⟨answer, s'⟩, w', hask, hfirst⟩ := Action.bind_eq_ok.1 h
    obtain ⟨⟨given', s''⟩, w'', hmore, hlast⟩ := Action.bind_eq_ok.1 hfirst
    cases hlast
    exact askAll_cons hask (ih hmore)

/-- A stream that has ended has nothing to give, and nothing is done. -/
theorem askAll_ended (session : Session σ) (asks : List Ask) (w : World σ) :
    askAll session .ended asks w = (.ok (asks.map fun _ => .ok none, .ended), w) := by
  induction asks with
  | nil => rfl
  | cons a asks ih =>
    refine askAll_cons ?_ ih
    cases a <;> rfl

/-- A stream that is closed before any row is asked for never starts. -/
theorem askAll_idle (session : Session σ) (statement : Statement) (w : World σ)
    (h : asks.head? ≠ some .next) : ∃ s,
    askAll session (.waiting statement) asks w = (.ok (asks.map fun _ => .ok none, s), w) := by
  match asks with
  | [] => exact ⟨_, rfl⟩
  | .next :: _ => exact absurd rfl h
  | .close :: rest => exact ⟨_, askAll_cons rfl (askAll_ended session rest w)⟩

end

/-! ## Streams that have started -/

section

variable {server : Server} {session : Session Wire} {o : OpenStream} {w : World Wire}
  {row : Entries} {rows : List Entries}

/-- A row is given, and nothing else is done. -/
theorem ask_row (h : o.cursor.delivered = row :: rows) :
    ask session (.running o) .next w
      = (.ok (.ok (some row), .running { o with cursor := o.cursor.advance }), w) := by
  rw [ask_next, next, pull, (Cursor.pull_of_delivered h).1]
  rfl

/-- Rows are given as long as there are some. -/
theorem askAll_reading {k : Nat} (hk : k ≤ o.cursor.delivered.length) (w : World Wire) :
    ∃ o' : OpenStream, askAll session (.running o) (List.replicate k .next) w
        = (.ok ((o.cursor.delivered.take k).map fun row => .ok (some row), .running o'), w) ∧
      o'.cursor.delivered = o.cursor.delivered.drop k ∧ o'.cursor.last = o.cursor.last ∧
      o'.cursor.connection = o.cursor.connection := by
  -- giving a row changes the stream and not the world, so the cursor carries the induction
  induction k generalizing o with
  | zero => exact ⟨o, rfl, rfl, rfl, rfl⟩
  | succ k ih =>
    obtain ⟨row, rest, hdelivered⟩ :=
      List.exists_cons_of_length_pos (Nat.lt_of_lt_of_le k.succ_pos hk)
    obtain ⟨-, hadvanced, hlast⟩ := Cursor.pull_of_delivered hdelivered
    rw [hdelivered, List.length_cons] at hk
    obtain ⟨o', hasked, hdelivered', hlast', hconnection⟩ :=
      ih (o := { o with cursor := o.cursor.advance }) (hadvanced.symm ▸ Nat.le_of_succ_le_succ hk)
    rw [hadvanced] at hasked hdelivered'
    refine ⟨o', ?_, ?_, hlast'.trans hlast, hconnection⟩
    · rw [hdelivered]
      exact askAll_cons (ask_row hdelivered) hasked
    · rw [hdelivered', hdelivered, List.drop_succ_cons]

variable (hclose : ∀ c, session.adapter.closeCursor c = do
  let _ ← Wire.send server c.connection .closeCursor)

include hclose

/-- Behind the last row the stream ends, and its cursor is closed. -/
theorem ask_last (h : o.cursor.delivered = []) (w : World Wire) :
    ∃ w', w'.peer.history = w.peer.history ++ [⟨o.cursor.connection, .closeCursor⟩] ∧
      ask session (.running o) .next w
        = (.ok ((o.cursor.closing server w >>= fun _ => o.cursor.last).map fun _ => none, .ended),
          w') := by
  have hpull : next session (.running o) = finish session.adapter o
      (Action.ofExcept (o.cursor.last.map fun _ => (none, .ended))) := by
    rw [next, pull, Cursor.pull_of_delivered_nil h]
    cases o.cursor.last <;> rfl
  obtain ⟨w', hhistory, hfinish⟩ :=
    finish_ends hclose o (o.cursor.last.map fun _ => (none, Stream.ended)) w
  refine ⟨w', hhistory, ?_⟩
  rw [ask_next, hpull, hfinish]
  cases o.cursor.closing server w <;> cases o.cursor.last <;> rfl

/-- A stream that is closed closes its cursor. -/
theorem ask_close_running (o : OpenStream) (w : World Wire) :
    ∃ w', w'.peer.history = w.peer.history ++ [⟨o.cursor.connection, .closeCursor⟩] ∧
      ask session (.running o) .close w
        = (.ok ((o.cursor.closing server w).map fun _ => none, .ended), w') := by
  obtain ⟨w', hhistory, hfinish⟩ := finish_ends hclose o (.ok ()) w
  have hclosed : close session (.running o) w
      = (o.cursor.closing server w >>= fun _ => .ok (), w') := hfinish
  refine ⟨w', hhistory, ?_⟩
  rw [ask_close, hclosed]
  cases o.cursor.closing server w <;> rfl

/-- Some rows are read, and then the stream is closed. -/
theorem askAll_closed {k : Nat} (hk : k ≤ o.cursor.delivered.length) (rest : List Ask)
    (w : World Wire) :
    ∃ w', w'.peer.history = w.peer.history ++ [⟨o.cursor.connection, .closeCursor⟩] ∧
      askAll session (.running o) (List.replicate k .next ++ .close :: rest) w
        = (.ok (((o.cursor.delivered.take k).map fun row => .ok (some row))
            ++ ((o.cursor.closing server w).map fun _ => none) :: rest.map fun _ => .ok none,
          .ended), w') := by
  obtain ⟨o', hread, -, -, hconnection⟩ := askAll_reading hk w
  obtain ⟨w', hhistory, hclosed⟩ := ask_close_running hclose o' w
  rw [Cursor.closing, hconnection, ← Cursor.closing] at hclosed
  rw [hconnection] at hhistory
  exact ⟨w', hhistory, askAll_append hread (askAll_cons hclosed (askAll_ended session rest w'))⟩

/-- All rows are read, and one more is asked for. -/
theorem askAll_exhausted (o : OpenStream) (rest : List Ask) (w : World Wire) :
    ∃ w', w'.peer.history = w.peer.history ++ [⟨o.cursor.connection, .closeCursor⟩] ∧
      askAll session (.running o) (List.replicate (o.cursor.delivered.length + 1) .next ++ rest) w
        = (.ok ((o.cursor.delivered.map fun row => .ok (some row))
            ++ ((o.cursor.closing server w >>= fun _ => o.cursor.last).map fun _ => none)
              :: rest.map fun _ => .ok none,
          .ended), w') := by
  obtain ⟨o', hread, hdelivered, hlast, hconnection⟩ :=
    askAll_reading (Nat.le_refl o.cursor.delivered.length) w
  rw [List.drop_length] at hdelivered
  rw [List.take_length] at hread
  obtain ⟨w', hhistory, hended⟩ := ask_last hclose hdelivered w
  rw [Cursor.closing, hconnection, ← Cursor.closing, hlast] at hended
  rw [hconnection] at hhistory
  refine ⟨w', hhistory, ?_⟩
  rw [List.replicate_succ', List.append_assoc]
  exact askAll_append hread (askAll_cons hended (askAll_ended session rest w'))

/-- The cursor of a stream is closed once, when the stream ends. -/
theorem askAll_closes (o : OpenStream) (asks : List Ask) (w : World Wire) :
    ∃ answers w', askAll session (.running o) asks w = (.ok answers, w') ∧
      w'.peer.history = w.peer.history ++
        if o.cursor.delivered.length < asks.length ∨ .close ∈ asks then
          [⟨o.cursor.connection, .closeCursor⟩]
        else [] := by
  obtain ⟨k, hk, rfl⟩ | ⟨k, hk, rest, rfl⟩ | ⟨rest, rfl⟩ :=
    Ask.reading_or_ending o.cursor.delivered.length asks
  · obtain ⟨o', hread, -⟩ := askAll_reading hk w
    have hopen : ¬(o.cursor.delivered.length < (List.replicate k Ask.next).length ∨
        .close ∈ List.replicate k Ask.next) := by
      rw [List.length_replicate, List.mem_replicate]
      rintro (hlong | ⟨-, ⟨⟩⟩)
      exact Nat.not_lt_of_le hk hlong
    exact ⟨_, w, hread, by rw [if_neg hopen, List.append_nil]⟩
  · obtain ⟨w', hhistory, hclosed⟩ := askAll_closed hclose hk rest w
    rw [if_pos (.inr (List.mem_append_right _ List.mem_cons_self))]
    exact ⟨_, w', hclosed, hhistory⟩
  · obtain ⟨w', hhistory, hended⟩ := askAll_exhausted hclose o rest w
    rw [if_pos (.inl (by rw [List.length_append, List.length_replicate]; omega))]
    exact ⟨_, w', hended, hhistory⟩

end

/-! ## Streams that are asked for their first row -/

section

variable {σ : Type} {session : Session σ} {statement : Statement} {w w₁ w₂ : World σ}

theorem start_of_ok (s : Session σ) {c : Cursor}
    (h : s.adapter.stream statement w = (.ok c, w₁)) :
    start s statement w = (.ok ⟨statement, s.observer, w.clock, c⟩, w₁) := by
  rw [start, Action.bind_of_ok (Action.now_apply w), Action.bind_of_ok (Action.onFault_of_ok h)]
  rfl

theorem start_of_error (s : Session σ) {e : Fault}
    (h : s.adapter.stream statement w = (.error e, w₁))
    (htold : s.observer.conclude w.clock [statement] w₁ = (.ok (), w₂)) :
    start s statement w = (.error e, w₂) := by
  have hrefused : Action.onFault (s.adapter.stream statement)
      (fun _ => s.observer.conclude w.clock [statement]) w
        = (.error (Action.faultAfter e (.ok ())), w₂) := Action.onFault_of_error h htold
  rw [start, Action.bind_of_ok (Action.now_apply w)]
  exact Action.bind_of_error hrefused

/-- A stream whose statement is run goes on like one that had started. -/
theorem askAll_started {c : Cursor} (h : session.adapter.stream statement w = (.ok c, w₁))
    (asks : List Ask) :
    ∃ o : OpenStream, o.cursor = c ∧ askAll session (.waiting statement) (.next :: asks) w
      = askAll session (.running o) (.next :: asks) w₁ := by
  let o : OpenStream := { statement, observer := session.observer, began := w.clock, cursor := c }
  have hstart : start session statement w = (.ok o, w₁) := start_of_ok session h
  have hnext : next session (.waiting statement) w = next session (.running o) w₁ :=
    Action.bind_of_ok hstart
  refine ⟨o, rfl, ?_⟩
  rw [askAll, askAll, Action.bind_apply, Action.bind_apply, ask_next, ask_next, hnext]

/-- A stream whose statement is refused ends. -/
theorem askAll_refused {e : Fault} (h : session.adapter.stream statement w = (.error e, w₁))
    (asks : List Ask) :
    ∃ w', w'.peer = w₁.peer ∧ askAll session (.waiting statement) (.next :: asks) w
      = (.ok (.error e :: asks.map fun _ => .ok none, .ended), w') := by
  obtain ⟨w', htold, hpeer⟩ := tellAll_peer session.observer
    (Journal.millis (w₁.clock - w.clock)) [statement] w₁
  have hlast : session.observer.conclude w.clock [statement] w₁ = (.ok (), w') := htold
  have hstart : start session statement w = (.error e, w') := start_of_error session h hlast
  have hnext : next session (.waiting statement) w = (.error e, w') := Action.bind_of_error hstart
  refine ⟨w', hpeer, askAll_cons ?_ (askAll_ended session asks w')⟩
  rw [ask_next, hnext]

end

end Stream

/-! ## Collected rows -/

namespace Adapter

/-- A statement whose rows are all collected. -/
def collecting (s : Statement) : Statement := { s with fetch := .all }

/-- What collecting all rows of a statement has to do with running it for a stream: it is refused
in the same way, and otherwise gives the rows of such a cursor. -/
structure CollectsAll {σ : Type} (a : Adapter σ) (sound : Cursor → Prop) (s : Statement)
    (w : World σ) : Prop where
  refused : ∀ e w₁, a.stream s w = (.error e, w₁) → a.run (collecting s) w = (.error e, w₁)
  collected : ∀ c w₁, a.stream s w = (.ok c, w₁) → sound c →
    (a.run (collecting s) w).1.map (·.collected) = c.drain.map .all

/-- Rows are collected, and what follows does not fail. -/
theorem collected_of_tail {σ : Type} {reads : Except Fault Fetched}
    {tail : Fetched → Action σ Result}
    (h : ∀ x w, ∃ r w', tail x w = (.ok r, w') ∧ r.collected = x) (w : World σ) :
    ((Action.ofExcept reads >>= tail) w).1.map (·.collected) = reads := by
  have hreads : Action.ofExcept reads w = (reads, w) := rfl
  cases reads with
  | error e =>
    rw [Action.bind_of_error hreads]
    rfl
  | ok x =>
    obtain ⟨r, w', htail, rfl⟩ := h x w
    rw [Action.bind_of_ok hreads, htail]
    rfl

/-- The first word of a text can be read. -/
theorem command_of_isText {σ : Type} {sql : Value} (h : sql.isText = true) :
    ∃ command, ∀ w : World σ,
      Action.ofExcept (Statement.command sql) w = (.ok command, w) := by
  cases sql with
  | text | keyword => exact ⟨_, fun _ => rfl⟩
  | _ => cases h

section

variable {σ : Type} {first : Action σ (Value × Cursor)} {w w₁ : World σ}

/-- The steps of an adapter that runs a statement for a stream. -/
theorem CollectsAll.of_start {a : Adapter σ} {sound : Cursor → Prop} {s : Statement}
    {rest : Journal.Micros → Value × Cursor → Action σ Result}
    (hstream : a.stream s = do return (← first).2)
    (hrun : a.run (collecting s) = do rest (← Action.now) (← first))
    (hrest : ∀ began sql c w₁, first w = (.ok (sql, c), w₁) → sound c →
      (rest began (sql, c) w₁).1.map (·.collected) = c.drain.map .all) :
    CollectsAll a sound s w := by
  have hnow := Action.now_apply w
  constructor
  · intro e w₁ h
    rw [hstream] at h
    rw [hrun, Action.bind_of_ok hnow]
    rcases hfirst : first w with ⟨e' | p, w'⟩
    · cases (Action.bind_of_error hfirst).symm.trans h
      exact Action.bind_of_error hfirst
    · cases (Action.bind_of_ok hfirst).symm.trans h
  · intro c w₁ h hsound
    rw [hstream] at h
    obtain ⟨⟨sql, c'⟩, w', hfirst, hpure⟩ := Action.bind_eq_ok.1 h
    cases hpure
    rw [hrun, Action.bind_of_ok hnow, Action.bind_of_ok hfirst]
    exact hrest _ sql _ _ hfirst hsound

end

variable {server : Server} {installed : Bool} {slow : Int}

theorem sqlite_collectsAll (s : Statement) (w : World Wire) :
    CollectsAll (sqlite server slow)
      (fun c => s.query.isText = true ∧ c.rowCount.isSome = true) s w := by
  refine .of_start rfl rfl fun began sql c w₁ hfirst hsound => ?_
  obtain ⟨htext, hcount⟩ := hsound
  obtain ⟨prepared, w', hprepared, hsent⟩ := Action.bind_eq_ok.1 hfirst
  obtain ⟨c', w'', -, hpure⟩ := Action.bind_eq_ok.1 hsent
  cases hpure
  cases hprepared
  obtain ⟨command, hcommand⟩ := command_of_isText htext
  obtain ⟨n, hn⟩ := Option.isSome_iff_exists.1 hcount
  refine collected_of_tail (fun x w => ?_) w₁
  rw [hn]
  exact ⟨_, _, Action.bind_of_ok (hcommand w), rfl⟩

theorem postgres_collectsAll (s : Statement) (w : World Wire) :
    CollectsAll (postgres server installed slow) (fun c => c.columns ≠ []) s w := by
  refine .of_start rfl rfl fun began sql c w₁ hfirst hcolumns => ?_
  -- the markers of the text were counted before it was sent
  have htext : sql.isText = true := by
    obtain ⟨prepared, w', -, hsent⟩ := Action.bind_eq_ok.1 hfirst
    obtain ⟨c', w'', hexecuted, hpure⟩ := Action.bind_eq_ok.1 hsent
    cases hpure
    obtain ⟨markers, w₂, hmarkers, -⟩ := Action.bind_eq_ok.1 hexecuted
    have hcounted : Postgres.markersOf prepared.sql = .ok markers := congrArg Prod.fst hmarkers
    rw [Postgres.markersOf] at hcounted
    split at hcounted
    next hsql =>
      rw [Value.isText, hsql]
      rfl
    next => cases hcounted
  obtain ⟨command, hcommand⟩ := command_of_isText htext
  have hreads : Postgres.collectColumns .all c = c.drain.map .all := by
    rw [Postgres.collectColumns, if_neg (mt List.isEmpty_iff.1 hcolumns)]
    rfl
  rw [← hreads]
  refine collected_of_tail (fun x w => ?_) w₁
  exact ⟨_, _, Action.bind_of_ok (hcommand w), rfl⟩

end Adapter

/-! ## Streams beside collected rows -/

namespace Stream

/-- What a stream of a statement comes to in a world, beside collecting the rows of the statement
there. -/
structure GivesCollected (server : Server) (session : Session Wire) (sound : Cursor → Prop)
    (s : Statement) (w : World Wire) : Prop
    extends Adapter.CollectsAll session.adapter sound s w where
  /-- The statement is executed once, and its cursor has the rows that the driver replies with. -/
  executed : ∀ c w₁, session.adapter.stream s w = (.ok c, w₁) → ∃ events,
    w₁.peer.history = w.peer.history ++ events ∧
      Wire.met server w.peer.history events = [.executed c]
  /-- A stream that is closed before it is asked for a row does nothing. -/
  idle : ∀ asks, asks.head? ≠ some .next → ∃ st,
    askAll session (.waiting s) asks w = (.ok (asks.map fun _ => .ok none, st), w)
  /-- A stream whose statement is refused ends with the refusal. It has no cursor to close. -/
  ended : ∀ e w₁ rest, session.adapter.stream s w = (.error e, w₁) → ∃ w', w'.peer = w₁.peer ∧
    askAll session (.waiting s) (.next :: rest) w
      = (.ok (.error e :: rest.map fun _ => .ok none, .ended), w')
  /-- As many rows are given as are asked for, and nothing is done after the statement is run. -/
  reading : ∀ c w₁ k, session.adapter.stream s w = (.ok c, w₁) → k < c.delivered.length → ∃ st,
    askAll session (.waiting s) (List.replicate (k + 1) .next) w
      = (.ok ((c.delivered.take (k + 1)).map fun row => .ok (some row), st), w₁)
  /-- A stream that is closed has given as many rows as were asked for. -/
  closed : ∀ c w₁ k rest, session.adapter.stream s w = (.ok c, w₁) → k < c.delivered.length →
    ∃ w', askAll session (.waiting s) (List.replicate (k + 1) .next ++ .close :: rest) w
      = (.ok (((c.delivered.take (k + 1)).map fun row => .ok (some row))
          ++ ((c.closing server w₁).map fun _ => none) :: rest.map fun _ => .ok none, .ended), w')
  /-- A stream that is asked for more gives all rows first, and then its end or its fault. -/
  exhausted : ∀ c w₁ rest, session.adapter.stream s w = (.ok c, w₁) →
    ∃ w', askAll session (.waiting s)
        (List.replicate (c.delivered.length + 1) .next ++ rest) w
      = (.ok ((c.delivered.map fun row => .ok (some row))
          ++ ((c.closing server w₁ >>= fun _ => c.last).map fun _ => none)
            :: rest.map fun _ => .ok none, .ended), w')
  /-- Once it has run its statement, the cursor is closed once when the stream ends, and not
  before. -/
  closes : ∀ c w₁ asks, session.adapter.stream s w = (.ok c, w₁) → asks.head? = some .next →
    ∃ answers w', askAll session (.waiting s) asks w = (.ok answers, w') ∧
      w'.peer.history = w₁.peer.history ++
        if c.delivered.length < asks.length ∨ .close ∈ asks then
          [⟨c.connection, .closeCursor⟩]
        else []
  /-- Its rows taken at once are those of the cursor, which is closed then. -/
  whole : ∀ c w₁, session.adapter.stream s w = (.ok c, w₁) →
    ∃ w', session.adapter.streamAll s w = (c.closing server w₁ >>= fun _ => c.drain, w') ∧
      w'.peer.history = w₁.peer.history ++ [⟨c.connection, .closeCursor⟩]

theorem givesCollected {server : Server} {reworded : Wire.Call → DriverFault → Bool}
    {session : Session Wire} {sound : Cursor → Prop} {s : Statement} {w : World Wire}
    (hstream : Ends server reworded (fun c => [.executed c]) (session.adapter.stream s))
    (hclose : ∀ c, session.adapter.closeCursor c = do
      let _ ← Wire.send server c.connection .closeCursor)
    (hcollects : Adapter.CollectsAll session.adapter sound s w) :
    GivesCollected server session sound s w where
  toCollectsAll := hcollects
  executed c w₁ h := by
    obtain ⟨events, hevents, hends⟩ := hstream w _ _ h
    refine ⟨events, hevents, ?_⟩
    generalize Wire.met server w.peer.history events = m at hends
    cases hends
    rfl
  idle _ h := askAll_idle session s w h
  ended e w₁ rest h := askAll_refused h rest
  reading c w₁ k h hk := by
    obtain ⟨o, rfl, hstarted⟩ := askAll_started h (List.replicate k .next)
    obtain ⟨o', hread, -⟩ := askAll_reading (Nat.succ_le_of_lt hk) w₁
    exact ⟨_, hstarted.trans hread⟩
  closed c w₁ k rest h hk := by
    obtain ⟨o, rfl, hstarted⟩ := askAll_started h (List.replicate k .next ++ .close :: rest)
    obtain ⟨w', -, hclosed⟩ := askAll_closed hclose (Nat.succ_le_of_lt hk) rest w₁
    exact ⟨w', hstarted.trans hclosed⟩
  exhausted c w₁ rest h := by
    obtain ⟨o, rfl, hstarted⟩ := askAll_started h (List.replicate c.delivered.length .next ++ rest)
    obtain ⟨w', -, hended⟩ := askAll_exhausted hclose o rest w₁
    exact ⟨w', hstarted.trans hended⟩
  closes c w₁ asks h hfirst := by
    obtain ⟨rest, rfl⟩ := List.head?_eq_some_iff.1 hfirst
    obtain ⟨o, rfl, hstarted⟩ := askAll_started h rest
    obtain ⟨answers, w', hanswers, hhistory⟩ := askAll_closes hclose o (.next :: rest) w₁
    exact ⟨answers, w', hstarted.trans hanswers, hhistory⟩
  whole c w₁ h := by
    obtain ⟨w', hhistory, hclosed⟩ := closeCursor_apply hclose c w₁
    have hdrain : Action.ofExcept c.drain w₁ = (c.drain, w₁) := rfl
    refine ⟨w', ?_, hhistory⟩
    rw [Adapter.streamAll, Action.bind_of_ok h, Action.always_apply, hdrain, hclosed]

end Stream

/-- A stream gives the rows that are collected for the same statement, one by one. It gives as many
as are asked for before it is closed or comes to a fault, and all of them before its end. When it
ends, in whichever way, it closes its cursor once. All this holds over both adapters, with any
driver; rows are collected where SQLite is sent a text and tells how many rows have changed, and
where PostgreSQL names columns. -/
theorem streams_give_collected_rows (server : Server) (installed : Bool) (slow : Int)
    (strict : Bool) (observer : Observer) (s : Statement) (w : World Wire) :
    (∀ c : Cursor, (∀ rows, c.drain = .ok rows ↔ c.delivered = rows ∧ c.last = .ok ()) ∧
      ∀ rows, c.rows.mapM (Row.shape c.columns) = .ok rows →
        c.delivered = rows ∧ c.last = c.finish) ∧
    Stream.GivesCollected server ⟨.sqlite server slow, strict, observer⟩
      (fun c => s.query.isText = true ∧ c.rowCount.isSome = true) s w ∧
    Stream.GivesCollected server ⟨.postgres server installed slow, strict, observer⟩
      (fun c => c.columns ≠ []) s w :=
  ⟨fun _ => ⟨fun _ => Cursor.drain_eq_ok, fun _ => Cursor.delivered_of_mapM⟩,
    Stream.givesCollected ((Adapter.Sqlite.ends_start s).map (fun p => p.2) fun _ => rfl)
      (fun _ => rfl) (Adapter.sqlite_collectsAll s w),
    Stream.givesCollected ((Adapter.Postgres.ends_start s).map (fun p => p.2) fun _ => rfl)
      (fun _ => rfl) (Adapter.postgres_collectsAll s w)⟩

/-- A driver whose results have two rows, after which fetching fails. -/
def failingDisk : Server := fun _ event =>
  match event.call with
  | .execute _ _ =>
    { columns := [.text "id"], rows := [.plain [.int 1], .plain [.int 2]]
      ending := some (.operational "disk I/O error") }
  | _ => {}

theorem streams_give_collected_rows_failing :
    let session : Session Wire := ⟨.sqlite failingDisk 0, false, .hook⟩
    let statement : Statement := ⟨.text "SELECT id FROM staff", [], .all⟩
    let w : World Wire := { peer := { opened := 1, held := some ⟨0, { url := .text "app.db" }⟩ } }
    let row (n : Int) : Except Fault (Option Entries) := .ok (some [(.text "id", .int n)])
    (∃ w', Stream.askAll session (.waiting statement) [.next, .close, .next] w
      = (.ok ([row 1, .ok none, .ok none], .ended), w')) ∧
    (∃ w', Stream.askAll session (.waiting statement) [.next, .next, .next, .next] w
      = (.ok ([row 1, row 2, .error (.driver (.operational "disk I/O error")), .ok none], .ended),
        w')) ∧
    (session.adapter.run statement w).1.map (·.collected)
      = .error (.driver (.operational "disk I/O error")) := by
  intro session statement w row
  obtain ⟨-, hsqlite, -⟩ := streams_give_collected_rows failingDisk true 0 false .hook statement w
  have hrun : session.adapter.stream statement w = (.ok _, _) := rfl
  obtain ⟨w', hclosed⟩ := hsqlite.closed _ _ 0 [.next] hrun Nat.two_pos
  obtain ⟨w'', hended⟩ := hsqlite.exhausted _ _ [.next] hrun
  exact ⟨⟨w', hclosed⟩, ⟨w'', hended⟩, hsqlite.collected _ _ hrun ⟨rfl, rfl⟩⟩

end Querywright
