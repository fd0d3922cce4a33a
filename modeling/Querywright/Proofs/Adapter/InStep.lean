/-
  Adapters in step: with statements that differ in secrets alone, and against servers that answer
  alike, they do the same but for what they send.

  * `Adapter.InStep` says so of each operation on an open connection.
  * `inStep_sqlite`, `inStep_postgres`: both adapters, each against two servers.
-/
import Querywright.Adapter.Postgres
import Querywright.Adapter.Sqlite
import Querywright.Proofs.Adapter.Abreast

namespace Querywright

open Secret (AllAlike)
open Wire (Server)

namespace Adapter

/-- The adapters do the same but for what they send. -/
structure InStep (server server' : Server) (a a' : Adapter Wire) : Prop where
  run : ∀ {s s'}, s.Alike s' → Couples server server' Eq (a.run s) (a'.run s')
  stream : ∀ {s s'}, s.Alike s' → Couples server server' Eq (a.stream s) (a'.stream s')
  closeCursor : ∀ c, Couples server server' Eq (a.closeCursor c) (a'.closeCursor c)
  begin : Couples server server' Eq a.begin a'.begin
  commit : Couples server server' Eq a.commit a'.commit
  rollback : Couples server server' Eq a.rollback a'.rollback

variable {server server' : Server} {slow : Int} {sql : Value} {values values' : List Value}
  {s s' : Statement}

/-! ## SQLite -/

namespace Sqlite

theorem couples_connection : Couples server server' Eq connection connection := by
  refine Couples.peer.bind (fun wire wire' hwire => ?_) Wire.Abreast.refl
  rw [hwire.held]
  cases wire'.held with
  | none => exact .throw _
  | some held => exact .pure rfl

theorem couples_execute (h : AllAlike values values') :
    Couples server server' Eq (execute server slow sql values)
      (execute server' slow sql values') :=
  couples_connection.andThen fun c => (Wire.couples_send c c _ _).andThen fun _ =>
    .timed (Secret.redactAll_of_alike h) (.mapFault refused (Wire.couples_query c sql _ _))

theorem couples_start (h : s.Alike s') :
    Couples server server' Eq (start server slow s) (start server' slow s') := by
  refine (Couples.ofExcept (Dialect.sqlite.matches_translate h)).bind (fun p p' hp => ?_) .refl
  rw [hp.sql]
  exact (couples_execute hp.arguments).andThen fun cursor => .pure rfl

theorem couples_run (h : s.Alike s') :
    Couples server server' Eq (run server slow s) (run server' slow s') := by
  refine Couples.now.andThen fun began => (couples_start h).andThen fun p => ?_
  rw [h.fetch]
  refine (Couples.ofExcept (.refl (fun _ => rfl) _)).andThen fun collected => ?_
  split
  · exact .throw _
  · exact (Couples.ofExcept (.refl (fun _ => rfl) _)).andThen fun command =>
      Couples.now.andThen fun ended => .pure rfl

theorem couples_onConnection (call : Wire.Call) :
    Couples server server' Eq (onConnection server call) (onConnection server' call) :=
  couples_connection.andThen fun c => (Wire.couples_send c c _ _).andThen fun _ => .pure rfl

end Sqlite

theorem inStep_sqlite (server server' : Server) (slow : Int) :
    InStep server server' (sqlite server slow) (sqlite server' slow) where
  run h := Sqlite.couples_run h
  stream h := (Sqlite.couples_start h).andThen fun _ => .pure rfl
  closeCursor _ := (Wire.couples_send _ _ _ _).andThen fun _ => .pure rfl
  begin := Sqlite.couples_onConnection _
  commit := Sqlite.couples_onConnection _
  rollback := Sqlite.couples_onConnection _

/-! ## PostgreSQL -/

namespace Postgres

variable {installed : Bool}

theorem couples_connect (settings : Settings) :
    Couples server server' Eq (connect server installed settings)
      (connect server' installed settings) := by
  cases installed with
  | false => exact .throw _
  | true =>
    refine (Couples.ofExcept (.refl (fun _ => rfl) _)).andThen fun label =>
      (Couples.log _).andThen fun _ => Couples.andThen (.mapFault _ ?_) fun c =>
        (Wire.couples_send c c _ _).andThen fun _ => Wire.couples_hold c settings
    exact (Couples.ofExcept (.refl (fun _ => rfl) _)).andThen fun options =>
      (Couples.ofExcept (.refl (fun _ => rfl) _)).andThen fun _ => Wire.couples_connect _ _

theorem couples_held : Couples server server' Eq held held := by
  refine Couples.peer.bind (fun wire wire' hwire => ?_) Wire.Abreast.refl
  rw [hwire.held]
  cases wire'.held with
  | none => exact .throw _
  | some held => exact .pure rfl

theorem couples_connection :
    Couples server server' Eq (connection server installed) (connection server' installed) := by
  refine couples_held.andThen fun now =>
    (Wire.couples_isDropped now.connection).andThen fun dropped => ?_
  cases dropped with
  | false => exact .pure rfl
  | true => exact (Couples.log _).andThen fun _ => (couples_connect _).andThen fun _ => couples_held

theorem couples_execute (h : AllAlike values values') :
    Couples server server' Eq (execute server installed slow sql values)
      (execute server' installed slow sql values') := by
  refine (Couples.ofExcept (.refl (fun _ => rfl) _)).andThen fun markers => ?_
  rw [h.length_eq]
  split
  · exact .throw _
  · exact couples_connection.andThen fun now => (Wire.couples_send _ _ _ _).andThen fun _ =>
      .timed (Secret.redactAll_of_alike h) (.mapFault refused (Wire.couples_query _ sql _ _))

theorem couples_start (h : s.Alike s') :
    Couples server server' Eq (start server installed slow s)
      (start server' installed slow s') := by
  refine (Couples.ofExcept (Dialect.postgres.matches_translate h)).bind (fun p p' hp => ?_) .refl
  rw [hp.sql]
  exact (couples_execute hp.arguments).andThen fun cursor => .pure rfl

theorem couples_run (h : s.Alike s') :
    Couples server server' Eq (run server installed slow s) (run server' installed slow s') := by
  refine Couples.now.andThen fun began => (couples_start h).andThen fun p => ?_
  rw [h.fetch]
  exact (Couples.ofExcept (.refl (fun _ => rfl) _)).andThen fun collected =>
    (Couples.ofExcept (.refl (fun _ => rfl) _)).andThen fun command =>
      Couples.now.andThen fun ended => .pure rfl

theorem couples_begin :
    Couples server server' Eq (begin server installed) (begin server' installed) := by
  refine couples_connection.andThen fun now => ?_
  split
  · exact (Wire.couples_send _ _ _ _).andThen fun _ =>
      (Wire.couples_query _ _ _ _).andThen fun _ => .pure rfl
  · exact .pure rfl

theorem couples_onConnection (call : Wire.Call) :
    Couples server server' Eq (onConnection server installed call)
      (onConnection server' installed call) :=
  couples_connection.andThen fun _ => (Wire.couples_send _ _ _ _).andThen fun _ => .pure rfl

end Postgres

theorem inStep_postgres (server server' : Server) (installed : Bool) (slow : Int) :
    InStep server server' (postgres server installed slow) (postgres server' installed slow) where
  run h := Postgres.couples_run h
  stream h := (Postgres.couples_start h).andThen fun _ => .pure rfl
  closeCursor _ := (Wire.couples_send _ _ _ _).andThen fun _ => .pure rfl
  begin := Postgres.couples_begin
  commit := Postgres.couples_onConnection _
  rollback := Postgres.couples_onConnection _

end Adapter
end Querywright
