/-
  Steps that may fail.

  * What a step that succeeds went through: `bind_eq_ok`, `mapM_eq_ok`.
  * `FailsWith`: the faults that a step may end in.
  * `bind_commutes`: a step whose result changes as its input does.
  * `Matches`: two runs whose outcomes are related values, or the same fault.
-/
import Mathlib.Data.List.Forall2
import Mathlib.Data.List.Induction
import Querywright.Fault

namespace Querywright

variable {ε α β γ δ : Type}

theorem bind_eq_ok {x : Except ε α} {f : α → Except ε β} {b : β} :
    (x >>= f) = .ok b ↔ ∃ a, x = .ok a ∧ f a = .ok b := by
  cases x <;> simp [bind, Except.bind]

theorem map_eq_ok {x : Except ε α} {f : α → β} {b : β} :
    x.map f = .ok b ↔ ∃ a, x = .ok a ∧ f a = b := by
  cases x <;> simp [Except.map]

theorem pure_eq_ok {a b : α} : (pure a : Except ε α) = .ok b ↔ a = b := by
  simp [pure, Except.pure]

@[simp] theorem ok_bind (a : α) (f : α → Except ε β) : (Except.ok a >>= f) = f a := rfl

@[simp] theorem error_bind (e : ε) (f : α → Except ε β) :
    ((Except.error e : Except ε α) >>= f) = .error e := rfl

/-- There is one result for each step. -/
theorem mapM_eq_ok {f : α → Except ε β} {xs : List α} {ys : List β} :
    xs.mapM f = .ok ys ↔ List.Forall₂ (fun x y => f x = .ok y) xs ys := by
  induction xs generalizing ys with
  | nil => rw [List.mapM_nil, pure_eq_ok, List.forall₂_nil_left_iff, eq_comm]
  | cons x xs ih =>
    rw [List.mapM_cons, List.forall₂_cons_left_iff]
    simp only [bind_eq_ok, pure_eq_ok, ih]
    constructor
    · rintro ⟨y, hy, ys, hys, rfl⟩
      exact ⟨y, ys, hy, hys, rfl⟩
    · rintro ⟨y, ys, hy, hys, rfl⟩
      exact ⟨y, hy, ys, hys, rfl⟩

/-- What a list of results is made of. -/
theorem mem_of_mapM_eq_ok {f : α → Except ε β} {xs : List α} {ys : List β}
    (h : xs.mapM f = .ok ys) : ∀ y ∈ ys, ∃ x ∈ xs, f x = .ok y := by
  have hsteps := mapM_eq_ok.1 h
  clear h
  induction hsteps with
  | nil => exact List.forall_mem_nil _
  | cons hx _ ih =>
    refine List.forall_mem_cons.2 ⟨⟨_, List.mem_cons_self, hx⟩, fun y hy => ?_⟩
    obtain ⟨x, hmem, hy⟩ := ih y hy
    exact ⟨x, List.mem_cons_of_mem _ hmem, hy⟩

theorem length_of_mapM_eq_ok {f : α → Except ε β} {xs : List α} {ys : List β}
    (h : xs.mapM f = .ok ys) : ys.length = xs.length :=
  (mapM_eq_ok.1 h).length_eq.symm

/-- A list of steps fails when one of them does. -/
theorem exists_of_mapM_eq_error {f : α → Except ε β} {xs : List α} {e : ε}
    (h : xs.mapM f = .error e) : ∃ x ∈ xs, f x = .error e := by
  induction xs with
  | nil => cases h
  | cons x xs ih =>
    rw [List.mapM_cons] at h
    rcases hx : f x with e' | y
    · rw [hx] at h
      cases h
      exact ⟨x, List.mem_cons_self, hx⟩
    · rcases hxs : xs.mapM f with e' | ys
      · rw [hx, hxs] at h
        cases h
        obtain ⟨x', hx', hfail⟩ := ih hxs
        exact ⟨x', List.mem_cons_of_mem x hx', hfail⟩
      · rw [hx, hxs] at h
        cases h

/-- A run whose states are known: it succeeds when every step is allowed. -/
theorem foldlM_eq_ok {f : β → α → Except ε β} {P : α → Prop} (after : List α → β)
    (hstep : ∀ xs x b, f (after xs) x = .ok b ↔ P x ∧ b = after (xs ++ [x])) (xs : List α) (b : β) :
    xs.foldlM f (after []) = .ok b ↔ (∀ x ∈ xs, P x) ∧ b = after xs := by
  induction xs using List.reverseRecOn generalizing b with
  | nil =>
    rw [List.foldlM_nil, pure_eq_ok]
    exact ⟨fun h => ⟨nofun, h.symm⟩, fun h => h.2.symm⟩
  | append_singleton xs x ih =>
    rw [List.foldlM_append, bind_eq_ok, List.forall_mem_append, List.forall_mem_singleton, and_assoc]
    simp only [ih, List.foldlM_cons, List.foldlM_nil, bind_pure]
    constructor
    · rintro ⟨_, ⟨hall, rfl⟩, hlast⟩
      exact ⟨hall, (hstep xs x b).1 hlast⟩
    · rintro ⟨hall, hlast⟩
      exact ⟨after xs, ⟨hall, rfl⟩, (hstep xs x b).2 hlast⟩

/-- A run in which every step reads an item and takes in what it has read. -/
theorem foldlM_eq_mapM {f : β → α → Except ε β} {read : α → Except ε γ} {take : β → γ → β}
    (hstep : ∀ b x, f b x = (read x).map (take b)) (xs : List α) (b : β) :
    xs.foldlM f b = (xs.mapM read).map (List.foldl take b) := by
  induction xs generalizing b with
  | nil => rfl
  | cons x xs ih =>
    rw [List.foldlM_cons, hstep, List.mapM_cons]
    rcases read x with e | y
    · rfl
    · refine (ih (take b y)).trans ?_
      rcases xs.mapM read with e | ys <;> rfl

/-! ## The faults of a step -/

/-- The step fails with no other faults than these. -/
def FailsWith (P : Fault → Prop) (r : Except Fault α) : Prop := ∀ e, r = .error e → P e

section

variable {P : Fault → Prop} {r : Except Fault α}

theorem failsWith_ok (x : α) : FailsWith P (.ok x) := nofun

theorem failsWith_error {e : Fault} (h : P e) : FailsWith P (.error e : Except Fault α) := by
  rintro _ ⟨⟩
  exact h

theorem FailsWith.bind {f : α → Except Fault β} (h : FailsWith P r)
    (hnext : ∀ x, FailsWith P (f x)) : FailsWith P (r >>= f) := by
  cases r with
  | error e => exact failsWith_error (h e rfl)
  | ok x => exact hnext x

theorem FailsWith.map (h : FailsWith P r) (f : α → β) : FailsWith P (r.map f) := by
  cases r with
  | error e => exact failsWith_error (h e rfl)
  | ok x => exact failsWith_ok (f x)

theorem FailsWith.mapM {f : α → Except Fault β} (h : ∀ x, FailsWith P (f x)) (xs : List α) :
    FailsWith P (xs.mapM f) := by
  intro e he
  obtain ⟨x, -, hx⟩ := exists_of_mapM_eq_error he
  exact h x e hx

end

/-! ## A step before and after a change of its input -/

/-- A step that changes with its input, after a step that does. -/
theorem bind_commutes {x : Except ε α} {x' : Except ε β} {a : α → β} {f : α → Except ε γ}
    {f' : β → Except ε δ} {b : γ → δ} (hx : x' = x.map a)
    (hf : ∀ y, x = .ok y → f' (a y) = (f y).map b) : x' >>= f' = (x >>= f).map b := by
  subst hx
  cases x with
  | error e => rfl
  | ok y => exact hf y rfl

/-- A step that changes, after one that does not. -/
theorem bind_same {x : Except ε α} {f : α → Except ε β} {f' : α → Except ε γ} {b : β → γ}
    (hf : ∀ y, x = .ok y → f' y = (f y).map b) : x >>= f' = (x >>= f).map b := by
  cases x with
  | error e => rfl
  | ok y => exact hf y rfl

theorem mapM_commutes {a : α → β} {b : γ → δ} {f : α → Except ε γ} {f' : β → Except ε δ}
    {xs : List α} (h : ∀ x ∈ xs, f' (a x) = (f x).map b) :
    (xs.map a).mapM f' = (xs.mapM f).map (List.map b) := by
  induction xs with
  | nil => rfl
  | cons x xs ih =>
    obtain ⟨hx, hxs⟩ := List.forall_mem_cons.1 h
    rw [List.map_cons, List.mapM_cons, List.mapM_cons]
    exact bind_commutes hx fun y _ => bind_commutes (ih hxs) fun ys _ => rfl

/-! ## Outcomes of two runs -/

/-- Both outcomes are values, which are related, or both are the same fault. -/
inductive Matches (R : α → β → Prop) : Except Fault α → Except Fault β → Prop where
  | ok {x : α} {y : β} (h : R x y) : Matches R (.ok x) (.ok y)
  | error (e : Fault) : Matches R (.error e) (.error e)

section

variable {R : α → α → Prop} {S : β → β → Prop} {r r' : Except Fault α}

theorem Matches.fault_eq {e e' : Fault} (h : Matches R (.error e) (.error e')) : e = e' := by
  cases h
  rfl

theorem Matches.bind {f f' : α → Except Fault β} (h : Matches R r r')
    (hf : ∀ x x', R x x' → Matches S (f x) (f' x')) : Matches S (r >>= f) (r' >>= f') := by
  cases h with
  | ok h => exact hf _ _ h
  | error e => exact .error e

theorem Matches.map {f : α → β} (h : Matches R r r') (hf : ∀ x x', R x x' → S (f x) (f x')) :
    Matches S (r.map f) (r'.map f) := by
  cases h with
  | ok h => exact .ok (hf _ _ h)
  | error e => exact .error e

theorem Matches.mapError (h : Matches R r r') (g : Fault → Fault) :
    Matches R (r.mapError g) (r'.mapError g) := by
  cases h with
  | ok h => exact .ok h
  | error e => exact .error (g e)

theorem Matches.refl (h : ∀ x, R x x) (r : Except Fault α) : Matches R r r := by
  cases r with
  | ok x => exact .ok (h x)
  | error e => exact .error e

theorem matches_eq : Matches Eq r r' ↔ r = r' := by
  constructor
  · rintro (rfl | _)
    · rfl
    · rfl
  · rintro rfl
    exact .refl (fun _ => rfl) r

theorem matches_mapM {f f' : α → Except Fault β} {xs xs' : List α} (h : List.Forall₂ R xs xs')
    (hf : ∀ x x', R x x' → Matches S (f x) (f' x')) :
    Matches (List.Forall₂ S) (xs.mapM f) (xs'.mapM f') := by
  induction h with
  | nil => exact .ok .nil
  | cons hx _ ih =>
    rw [List.mapM_cons, List.mapM_cons]
    exact (hf _ _ hx).bind fun y y' hy => ih.bind fun ys ys' hys => .ok (.cons hy hys)

end

end Querywright
