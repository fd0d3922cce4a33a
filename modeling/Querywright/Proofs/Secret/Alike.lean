/-
  Statements that differ in secrets alone.

  * `Secret.Alike`: values that are the same, or both look like secrets. Masking makes them equal
    (`redactAll_of_alike`).
  * `Statement.Alike`: one query, one fetch mode, and alike values. A dialect hands such statements
    to a driver with one text and alike values, or refuses both for the same (`matches_translate`).
-/
import Mathlib.Data.List.Forall2
import Querywright.Dialect
import Querywright.Proofs.Outcome
import Querywright.Session.Basic

namespace Querywright

variable {α β γ : Type}

/-! ## Pairs of two runs -/

/-- The first parts are the same, and the second ones related. -/
def SameWith (R : β → β → Prop) (p p' : α × β) : Prop := p.1 = p'.1 ∧ R p.2 p'.2

theorem SameWith.refl {R : β → β → Prop} (hrefl : ∀ x, R x x) (p : α × β) :
    SameWith R p p := ⟨rfl, hrefl p.2⟩

/-! ## Lists of two runs -/

section

variable {R : α → β → Prop} {xs : List α} {ys : List β}

theorem forall₂_getElem? (h : List.Forall₂ R xs ys) (n : Nat) : Option.Rel R xs[n]? ys[n]? := by
  induction h generalizing n with
  | nil => exact .none
  | cons hx _ ih =>
    cases n with
    | zero => exact .some hx
    | succ n => exact ih n

theorem forall₂_set {x : α} {y : β} (h : List.Forall₂ R xs ys) (hx : R x y) (n : Nat) :
    List.Forall₂ R (xs.set n x) (ys.set n y) := by
  induction h generalizing n with
  | nil => exact .nil
  | cons hfirst hrest ih =>
    cases n with
    | zero => exact .cons hx hrest
    | succ n => exact .cons hfirst (ih n)

end

/-! ## Values -/

namespace Secret

/-- The values are the same, or both look like secrets. -/
def Alike (v v' : Value) : Prop := v = v' ∨ isSensitive v = true ∧ isSensitive v' = true

/-- Values that are so at each position. -/
abbrev AllAlike : List Value → List Value → Prop := List.Forall₂ Alike

theorem Alike.refl (v : Value) : Alike v v := .inl rfl

theorem AllAlike.refl (values : List Value) : AllAlike values values :=
  List.forall₂_same.2 fun v _ => .refl v

theorem redact_of_alike {v v' : Value} (h : Alike v v') : redact v = redact v' := by
  rcases h with rfl | ⟨h, h'⟩
  · rfl
  · rw [redact, redact, if_pos h, if_pos h']

theorem redactAll_of_alike {values values' : List Value} (h : AllAlike values values') :
    redactAll values = redactAll values' := by
  induction h with
  | nil => rfl
  | cons hv _ ih =>
    rw [redactAll, List.map_cons, redact_of_alike hv]
    exact congrArg _ ih

end Secret

open Secret (AllAlike)

/-! ## Statements -/

/-- The statements differ in secrets alone. -/
structure Statement.Alike (s s' : Statement) : Prop where
  query : s.query = s'.query
  fetch : s.fetch = s'.fetch
  arguments : AllAlike s.arguments s'.arguments

theorem Statement.Alike.refl (s : Statement) : s.Alike s := ⟨rfl, rfl, .refl s.arguments⟩

theorem Observer.masked_of_alike {s s' : Statement} (h : s.Alike s') : masked s = masked s' := by
  rw [masked, masked, h.query, h.fetch, Secret.redactAll_of_alike h.arguments]

/-- The callers ask for statements that differ in secrets alone, or for what is refused alike. -/
def Executable.Alike (x x' : Executable) : Prop :=
  Matches Statement.Alike x.toStatement x'.toStatement

/-! ## What reaches a driver -/

namespace Dialect

/-- The texts are the same, and the values differ in secrets alone. -/
structure Prepared.Alike (p p' : Prepared) : Prop where
  sql : p.sql = p'.sql
  arguments : AllAlike p.arguments p'.arguments

theorem Prepared.Alike.refl (p : Prepared) : p.Alike p := ⟨rfl, .refl p.arguments⟩

variable {arguments arguments' : List Value}

theorem matches_found {found found' : Option Value} (h : Option.Rel Secret.Alike found found') :
    Matches Secret.Alike (found.elim (.error .noIndex) .ok)
      (found'.elim (.error .noIndex) .ok) := by
  cases h with
  | none => exact .error _
  | some hv => exact .ok hv

theorem argumentAt_eq (arguments : List Value) (index : Int) :
    argumentAt arguments index = (if index = 0 then arguments.getLast?
      else arguments[(index - 1).toNat]?).elim (.error .noIndex) .ok := by
  rw [argumentAt]
  split <;> simp_all

theorem matches_argumentAt (h : AllAlike arguments arguments') (index : Int) :
    Matches Secret.Alike (argumentAt arguments index) (argumentAt arguments' index) := by
  rw [argumentAt_eq, argumentAt_eq]
  refine matches_found ?_
  split
  · rw [List.getLast?_eq_getElem?, List.getLast?_eq_getElem?, h.length_eq]
    exact forall₂_getElem? h _
  · exact forall₂_getElem? h _

/-- The indexes come from the text, so both lists are read at the same places. -/
theorem matches_toFormat (h : AllAlike arguments arguments') (sql : String) :
    Matches (fun p p' => p.sql = p'.sql ∧ AllAlike p.arguments p'.arguments)
      (toFormat sql arguments) (toFormat sql arguments') := by
  rw [toFormat, toFormat, h.length_eq]
  refine (Matches.refl (fun _ => rfl) _).bind fun indexes _ hsame => ?_
  subst hsame
  dsimp only
  split
  · exact .error _
  · refine (matches_mapM (List.forall₂_same.2 fun _ _ => rfl) fun index _ hindex => ?_).bind
      fun values values' hvalues => .ok ⟨rfl, hvalues⟩
    subst hindex
    exact matches_argumentAt h index

theorem matches_translate (d : Dialect) {s s' : Statement} (h : s.Alike s') :
    Matches Prepared.Alike (d.translate s) (d.translate s') := by
  cases d with
  | sqlite => exact .ok ⟨h.query, h.arguments⟩
  | postgres =>
    rw [translate, translate, h.query]
    cases s'.query.asText? with
    | none => exact .error _
    | some sql =>
      exact (matches_toFormat h.arguments sql).map fun p p' hp =>
        ⟨congrArg Value.text hp.1, hp.2⟩

end Dialect
end Querywright
