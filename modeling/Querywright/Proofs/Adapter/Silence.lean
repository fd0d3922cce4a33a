/-
  Actions that neither give reports nor look at them. From worlds that differ in their reports alone
  they come to the same, and the reports stay what they were.

  * `Silent`: what is composed of such actions is so too.
  * `Adapter.AllSilent`: an adapter that leaves it to the session to report. Both adapters do,
    whatever the driver answers (`allSilent_sqlite`, `allSilent_postgres`).
-/
import Querywright.Adapter.Postgres
import Querywright.Adapter.Sqlite
import Querywright.Proofs.Action

namespace Querywright

open Wire (Server)

variable {σ α β : Type}

/-- The world with other reports. -/
def World.reporting (w : World σ) (reports : List Report) : World σ := { w with reports }

/-- The action gives no reports, and does not depend on those that were given. -/
def Silent (a : Action σ α) : Prop :=
  ∀ w reports, a (w.reporting reports) = ((a w).1, (a w).2.reporting reports)

namespace Silent

variable {a : Action σ α}

theorem ofExcept (r : Except Fault α) : Silent (Action.ofExcept r : Action σ α) := fun _ _ => rfl

theorem pure (x : α) : Silent (Pure.pure x : Action σ α) := fun _ _ => rfl

theorem throw (e : Fault) : Silent (MonadExcept.throw e : Action σ α) := fun _ _ => rfl

theorem now : Silent (Action.now : Action σ Journal.Micros) := fun _ _ => rfl

theorem log (e : Journal.Entry) : Silent (Action.log e : Action σ Unit) := fun _ _ => rfl

theorem peer : Silent (Action.peer : Action σ σ) := fun _ _ => rfl

theorem setPeer (f : σ → σ) : Silent (Action.setPeer f) := fun _ _ => rfl

theorem bind {f : α → Action σ β} (h : Silent a) (hnext : ∀ x, Silent (f x)) :
    Silent (a >>= f) := by
  intro w reports
  rw [Action.bind_apply, Action.bind_apply, h w reports]
  rcases a w with ⟨e | x, w₁⟩
  · rfl
  · exact hnext x w₁ reports

theorem mapM {f : α → Action σ β} (h : ∀ x, Silent (f x)) (xs : List α) :
    Silent (xs.mapM f) := by
  induction xs with
  | nil => exact pure []
  | cons x xs ih =>
    rw [List.mapM_cons]
    exact (h x).bind fun y => ih.bind fun ys => pure (y :: ys)

theorem always {last : Action σ Unit} (h : Silent a) (hlast : Silent last) :
    Silent (Action.always a last) := by
  intro w reports
  rw [Action.always_apply, Action.always_apply, h w reports]
  dsimp only
  rw [hlast]

theorem onFault {handle : Fault → Action σ Unit} (h : Silent a) (hhandle : ∀ e, Silent (handle e)) :
    Silent (Action.onFault a handle) := by
  intro w reports
  have hsame := h w reports
  rcases ha : a w with ⟨e | x, w₁⟩ <;> rw [ha] at hsame
  · rw [Action.onFault_of_error hsame (hhandle e w₁ reports), Action.onFault_of_error ha rfl]
  · rw [Action.onFault_of_ok hsame, Action.onFault_of_ok ha]

theorem mapFault (g : Fault → Fault) (h : Silent a) : Silent (Action.mapFault g a) := by
  intro w reports
  rw [Action.mapFault_apply, Action.mapFault_apply, h w reports]

theorem timed {speaker name : String} {slow : Int} {sql : Value} {values : List Value}
    (h : Silent a) : Silent (Action.timed speaker name slow sql values a) :=
  now.bind fun _ => h.always (now.bind fun _ => log _)

end Silent

/-! ## Calls -/

namespace Wire

variable {server : Server}

theorem silent_send (c : Nat) (call : Call) : Silent (send server c call) := by
  refine Silent.peer.bind fun wire => (Silent.setPeer _).bind fun _ =>
    Silent.bind (fun _ _ => rfl) fun _ => ?_
  split
  · exact .throw _
  · exact .pure _

theorem silent_isDropped (c : Nat) : Silent (isDropped server c) :=
  Silent.peer.bind fun _ => (Silent.setPeer _).bind fun _ => .pure _

theorem silent_connect (target options : Value) : Silent (connect server target options) :=
  Silent.peer.bind fun _ => (Silent.setPeer _).bind fun _ =>
    (silent_send _ _).bind fun _ => .pure _

theorem silent_query (c : Nat) (sql : Value) (values : Option (List Value)) :
    Silent (query server c sql values) :=
  (silent_send c _).bind fun _ => .pure _

end Wire

/-! ## Adapters -/

namespace Adapter

/-- What a session asks of the adapter gives no reports. -/
structure AllSilent (a : Adapter σ) : Prop where
  run : ∀ s, Silent (a.run s)
  stream : ∀ s, Silent (a.stream s)
  closeCursor : ∀ c, Silent (a.closeCursor c)
  begin : Silent a.begin
  commit : Silent a.commit
  rollback : Silent a.rollback

variable {server : Server} {installed : Bool} {slow : Int}

namespace Sqlite

theorem silent_connection : Silent connection := by
  refine .bind .peer fun wire => ?_
  split
  · exact .pure _
  · exact .throw _

theorem silent_start (s : Statement) : Silent (start server slow s) :=
  .bind (.ofExcept _) fun _ => .bind (.bind silent_connection fun c =>
    .bind (Wire.silent_send c _) fun _ => .timed (.mapFault _ (Wire.silent_query _ _ _)))
    fun _ => .pure _

theorem silent_run (s : Statement) : Silent (run server slow s) := by
  refine .bind .now fun began => .bind (silent_start s) fun p => .bind (.ofExcept _) fun rows => ?_
  split
  · exact .throw _
  · exact .bind (.ofExcept _) fun _ => .bind .now fun _ => .pure _

theorem silent_onConnection (call : Wire.Call) :
    Silent (onConnection server call) :=
  .bind silent_connection fun c => .bind (Wire.silent_send c call) fun _ => .pure _

end Sqlite

theorem allSilent_sqlite (server : Server) (slow : Int) : (sqlite server slow).AllSilent where
  run := Sqlite.silent_run
  stream s := .bind (Sqlite.silent_start s) fun _ => .pure _
  closeCursor _ := .bind (Wire.silent_send _ _) fun _ => .pure _
  begin := Sqlite.silent_onConnection _
  commit := Sqlite.silent_onConnection _
  rollback := Sqlite.silent_onConnection _

namespace Postgres

theorem silent_connect (settings : Settings) :
    Silent (connect server installed settings) := by
  cases installed with
  | false => exact .throw _
  | true =>
    exact .bind (.ofExcept _) fun _ => .bind (.log _) fun _ =>
      .bind (.mapFault _ (.bind (.ofExcept _) fun _ => .bind (.ofExcept _) fun _ =>
        Wire.silent_connect _ _)) fun c => .bind (Wire.silent_send c _) fun _ => .setPeer _

theorem silent_held : Silent held := by
  refine .bind .peer fun wire => ?_
  split
  · exact .pure _
  · exact .throw _

theorem silent_connection : Silent (connection server installed) := by
  refine .bind silent_held fun now => .bind (Wire.silent_isDropped _) fun dropped => ?_
  split
  · exact .bind (.log _) fun _ => .bind (silent_connect _) fun _ => silent_held
  · exact .pure _

theorem silent_start (s : Statement) :
    Silent (start server installed slow s) := by
  refine .bind (.ofExcept _) fun prepared => .bind ?_ fun _ => .pure _
  refine .bind (.ofExcept _) fun markers => ?_
  split
  · exact .throw _
  · exact .bind silent_connection fun now => .bind (Wire.silent_send _ _) fun _ =>
      .timed (.mapFault _ (Wire.silent_query _ _ _))

theorem silent_run (s : Statement) : Silent (run server installed slow s) :=
  .bind .now fun _ => .bind (silent_start s) fun _ => .bind (.ofExcept _) fun _ =>
    .bind (.ofExcept _) fun _ => .bind .now fun _ => .pure _

theorem silent_begin : Silent (begin server installed) := by
  refine .bind silent_connection fun now => ?_
  split
  · exact .bind (Wire.silent_send _ _) fun _ => .bind (Wire.silent_query _ _ _) fun _ => .pure _
  · exact .pure _

theorem silent_onConnection (call : Wire.Call) :
    Silent (onConnection server installed call) :=
  .bind silent_connection fun _ => .bind (Wire.silent_send _ call) fun _ => .pure _

end Postgres

theorem allSilent_postgres (server : Server) (installed : Bool) (slow : Int) :
    (postgres server installed slow).AllSilent where
  run := Postgres.silent_run
  stream s := .bind (Postgres.silent_start s) fun _ => .pure _
  closeCursor _ := .bind (Wire.silent_send _ _) fun _ => .pure _
  begin := Postgres.silent_begin
  commit := Postgres.silent_onConnection _
  rollback := Postgres.silent_onConnection _

end Adapter
end Querywright
