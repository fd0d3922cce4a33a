/-
  What the drivers are asked to open.

  * `Wire.Opens`: an action asks for these connections, and for no others, in whatever world it
    runs.
  * `Sqlite.connect_opens`, `Postgres.connect_opens`: connecting asks for the one connection that
    the settings name.
-/
import Querywright.Adapter.Postgres
import Querywright.Adapter.Sqlite
import Querywright.Proofs.Adapter.Line

namespace Querywright

namespace Wire

/-- What a call asks a driver to open, and what it is told beside it. -/
def Call.opening? : Call → Option (Value × Value)
  | .connect target options => some (target, options)
  | _ => none

/-- What a driver was asked to open, in order. -/
def openings (history : List Event) : List (Value × Value) :=
  history.filterMap (·.call.opening?)

/-- Whatever was opened before, the action asks for these connections, and for no others. -/
def Opens {α : Type} (asked : List (Value × Value)) (a : Action Wire α) : Prop :=
  ∀ w, openings (a w).2.peer.history = openings w.peer.history ++ asked

variable {α β : Type} {asked : List (Value × Value)} {a : Action Wire α} {server : Server}

theorem openings_append (history : List Event) (e : Event) :
    openings (history ++ [e]) = openings history ++ e.call.opening?.toList := by
  rw [openings, List.filterMap_append]
  refine congrArg (openings history ++ ·) ?_
  cases h : e.call.opening? <;> simp [h]

/-- An action that leaves the calls as they are. -/
theorem opens_nothing (h : ∀ w, (a w).2.peer.history = w.peer.history) : Opens [] a := by
  intro w
  rw [h w, List.append_nil]

theorem opens_setPeer {f : Wire → Wire} (h : ∀ wire, (f wire).history = wire.history) :
    Opens [] (Action.setPeer f) :=
  opens_nothing fun w => h w.peer

theorem opens_send (server : Server) (c : Nat) (call : Call) :
    Opens call.opening?.toList (send server c call) := by
  intro w
  rw [send_apply]
  exact openings_append w.peer.history ⟨c, call⟩

theorem Opens.bind {f : α → Action Wire β} (ha : Opens asked a) (hf : ∀ x, Opens [] (f x)) :
    Opens asked (a >>= f) := by
  intro w
  rcases h : a w with ⟨e | x, w₁⟩
  · rw [Action.bind_of_error h, ← ha w, h]
  · rw [Action.bind_of_ok h, hf x w₁, List.append_nil, ← ha w, h]

/-- What goes before without a fault, and opens nothing. -/
theorem Opens.after {f : α → Action Wire β} (ha : Opens [] a) (hok : ∀ w, ∃ x, (a w).1 = .ok x)
    (hf : ∀ x, Opens asked (f x)) : Opens asked (a >>= f) := by
  intro w
  obtain ⟨x, hx⟩ := hok w
  have hw : a w = (.ok x, (a w).2) := Prod.ext hx rfl
  rw [Action.bind_of_ok hw, hf x, ha w, List.append_nil]

theorem Opens.mapFault (ha : Opens asked a) (g : Fault → Fault) :
    Opens asked (Action.mapFault g a) := by
  intro w
  rw [Action.mapFault_apply]
  exact ha w

theorem opens_throw (e : Fault) : Opens [] (throw e : Action Wire α) :=
  opens_nothing fun _ => rfl

/-- Asking for a connection. -/
theorem opens_connect (target options : Value) :
    Opens [(target, options)] (connect server target options) := by
  refine Opens.after (opens_nothing fun _ => rfl) (fun w => ⟨w.peer, rfl⟩) fun wire => ?_
  refine Opens.after (opens_setPeer fun _ => rfl) (fun _ => ⟨(), rfl⟩) fun _ => ?_
  exact (opens_send server wire.opened (.connect target options)).bind fun _ =>
    opens_nothing fun _ => rfl

theorem opens_hold (c : Nat) (s : Settings) : Opens [] (hold c s) := opens_setPeer fun _ => rfl

end Wire

namespace Adapter

open Wire (Server Opens)

variable {s : Settings}

/-- The SQLite adapter opens the file that the address names. -/
theorem Sqlite.connect_opens {path : Value} (server : Server)
    (h : Settings.databasePath s.url = .ok path) :
    Opens [(path, waiting s)] (connect server s) := by
  rw [connect, h]
  refine (Wire.opens_connect path (waiting s)).bind fun c => ?_
  refine (Wire.opens_send server c (.direct "PRAGMA foreign_keys = ON")).bind fun _ => ?_
  exact (Wire.opens_nothing fun _ => rfl).bind fun _ => Wire.opens_hold c s

namespace Postgres

variable {label : Value} {options : Entries}

/-- The connection to an address with options, all of which must have texts for names. -/
def request (url : Value) (options : Entries) : List (Value × Value) :=
  if (Value.texts options.keys).isOk then [(url, .map options)] else []

/-- The PostgreSQL adapter passes the whole address on, and beside it the options of the driver,
where all of them have texts for names. -/
theorem connect_opens (server : Server) (hlabel : s.label = .ok label)
    (hoptions : s.driverOptions = .ok options) :
    Opens (request s.url options) (connect server true s) := by
  rw [connect, hlabel]
  refine Opens.after (Wire.opens_nothing fun _ => rfl) (fun _ => ⟨label, rfl⟩) fun shown => ?_
  refine Opens.after (Wire.opens_nothing fun _ => rfl) (fun _ => ⟨(), rfl⟩) fun _ => ?_
  refine Opens.bind (Opens.mapFault ?request _) fun c => ?rest
  case request =>
    rw [hoptions, Action.ofExcept_ok_bind, request]
    rcases Value.texts options.keys with e | keywords
    · exact Wire.opens_throw e
    · exact Wire.opens_connect s.url (.map options)
  case rest =>
    exact (Wire.opens_send server c (.setAutocommit s.autocommit.truth)).bind fun _ =>
      Wire.opens_hold c s

end Postgres
end Adapter
end Querywright
