/-
  Actions one step after the other: where an action ends in a world, and what the outcome of a
  composed action says about its parts.
-/
import Querywright.Action

namespace Querywright.Action

variable {σ α β : Type} {a : Action σ α} {f : α → Action σ β} {w w' : World σ}

theorem bind_apply : (a >>= f) w = match a w with
    | (.ok x, w₁) => f x w₁
    | (.error e, w₁) => (.error e, w₁) := by
  show StateT.bind a (ExceptT.bindCont f) w = _
  rcases h : a w with ⟨first, w₁⟩
  cases first <;> simp only [StateT.bind, h] <;> rfl

theorem bind_of_ok {x : α} (h : a w = (.ok x, w')) : (a >>= f) w = f x w' := by
  rw [bind_apply, h]

theorem bind_of_error {e : Fault} (h : a w = (.error e, w')) :
    (a >>= f) w = (.error e, w') := by
  rw [bind_apply, h]

/-- A sequence that succeeds is two parts that do. -/
theorem bind_eq_ok {y : β} :
    (a >>= f) w = (.ok y, w') ↔ ∃ x w₁, a w = (.ok x, w₁) ∧ f x w₁ = (.ok y, w') := by
  rcases h : a w with ⟨first, w₁⟩
  cases first with
  | error e =>
    rw [bind_of_error h]
    constructor
    · rintro ⟨⟩
    · rintro ⟨_, _, ⟨⟩, -⟩
  | ok x =>
    rw [bind_of_ok h]
    constructor
    · exact fun hf => ⟨x, w₁, rfl, hf⟩
    · rintro ⟨_, _, ⟨⟩, hf⟩
      exact hf

/-- A last step that cannot fail. -/
theorem bind_pure_of_eq {g : α → β} {r : Except Fault α} (h : a w = (r, w')) :
    (a >>= fun x => pure (g x)) w = (r.map g, w') := by
  cases r with
  | error e => exact bind_of_error h
  | ok x => exact bind_of_ok h

theorem ofExcept_ok_bind (x : α) (f : α → Action σ β) : (ofExcept (.ok x) >>= f) = f x := rfl

theorem ofExcept_error_bind (e : Fault) (f : α → Action σ β) :
    (ofExcept (.error e) >>= f) = throw e := rfl

theorem now_apply (w : World σ) : now w = (.ok w.clock, w) := rfl

theorem peer_apply (w : World σ) : peer w = (.ok w.peer, w) := rfl

theorem map_apply (g : α → β) (a : Action σ α) (w : World σ) :
    (g <$> a) w = ((a w).1.map g, (a w).2) := by
  rw [map_eq_pure_bind]
  exact bind_pure_of_eq rfl

/-! ## Handling a fault -/

/-- The fault that goes on after a handler: the one that it handled, unless it has its own. -/
def faultAfter (e : Fault) : Except Fault α → Fault
  | .ok _ => e
  | .error later => later

theorem faultAfter_map (e : Fault) (g : α → β) (r : Except Fault α) :
    faultAfter e (r.map g) = faultAfter e r := by
  cases r <;> rfl

theorem onFault_of_ok {handle : Fault → Action σ Unit} {x : α} (h : a w = (.ok x, w')) :
    onFault a handle w = (.ok x, w') := by
  rw [onFault, h]

theorem onFault_of_error {handle : Fault → Action σ Unit} {e : Fault} {r : Except Fault Unit}
    {w₁ : World σ} (h : a w = (.error e, w₁)) (hhandle : handle e w₁ = (r, w')) :
    onFault a handle w = (.error (faultAfter e r), w') := by
  rw [onFault, h]
  simp only [hhandle]
  cases r <;> rfl

theorem onFault_eq_ok {handle : Fault → Action σ Unit} {x : α} :
    onFault a handle w = (.ok x, w') ↔ a w = (.ok x, w') := by
  rcases h : a w with ⟨r, w₁⟩
  cases r with
  | ok y => rw [onFault_of_ok h]
  | error e =>
    rw [onFault_of_error h (rfl : handle e w₁ = ((handle e w₁).1, (handle e w₁).2))]
    constructor <;> rintro ⟨⟩

/-- What the last part comes to only matters when it fails. -/
theorem always_apply (a : Action σ α) (last : Action σ Unit) (w : World σ) :
    always a last w = ((last (a w).2).1 >>= fun _ => (a w).1, (last (a w).2).2) := by
  rw [always]
  rcases a w with ⟨r, w₁⟩
  simp only
  rcases last w₁ with ⟨_ | -, w₂⟩ <;> rfl

theorem mapFault_apply (g : Fault → Fault) :
    mapFault g a w = ((a w).1.mapError g, (a w).2) := by
  rw [mapFault]
  rcases a w with ⟨r, w₁⟩
  cases r <;> rfl

theorem mapFault_bind (g : Fault → Fault) (a : Action σ α) (f : α → Action σ β) :
    mapFault g (a >>= f) = mapFault g a >>= fun x => mapFault g (f x) := by
  funext w
  rw [mapFault_apply, bind_apply, bind_apply, mapFault_apply]
  rcases a w with ⟨_ | x, w₁⟩
  · rfl
  · exact (mapFault_apply g).symm

theorem mapFault_eq_ok {g : Fault → Fault} {x : α} :
    mapFault g a w = (.ok x, w') ↔ a w = (.ok x, w') := by
  rw [mapFault_apply]
  rcases a w with ⟨r, w₁⟩
  cases r with
  | ok y => exact Iff.rfl
  | error e => constructor <;> rintro ⟨⟩

end Querywright.Action
