/-
  Texts whose placeholders have no digits.

  * `Bare`: no question mark is directly followed by a digit.
  * `Bare.numbers`: such a text holds bare placeholders only, so they take consecutive indexes
    (`Bare.resolve`).
  * `joinable_bare`: texts that are bare are so once they are joined.
-/
import Querywright.Proofs.Clause.Cells

namespace Querywright.Placeholder

open Text

/-- No question mark is directly followed by a digit, inside or outside a literal. -/
def Bare : List Char → Prop
  | [] => True
  | c :: rest => (c = '?' → ∀ d ∈ rest.head?, isDigit d = false) ∧ Bare rest

instance decidableBare : (s : List Char) → Decidable (Bare s)
  | [] => isTrue trivial
  | _ :: rest =>
    have : Decidable (∀ d ∈ rest.head?, isDigit d = false) := Option.decidableForallMem _
    @instDecidableAnd _ _ inferInstance (decidableBare rest)

/-- Two bare texts after one another, unless digits follow a question mark where they meet. -/
theorem Bare.append {a b : List Char} (ha : Bare a) (hb : Bare b)
    (h : a.getLast? ≠ some '?' ∨ ∀ d ∈ b.head?, isDigit d = false) : Bare (a ++ b) := by
  induction a with
  | nil => exact hb
  | cons c rest ih =>
    obtain ⟨hc, hrest⟩ := ha
    cases rest with
    | nil =>
      refine ⟨fun hmark => ?_, hb⟩
      rcases h with hlast | hdigit
      · exact absurd (congrArg some hmark) hlast
      · exact hdigit
    | cons d rest => exact ⟨hc, ih hrest h⟩

theorem bare_of_not_mem {s : List Char} (h : '?' ∉ s) : Bare s := by
  induction s with
  | nil => trivial
  | cons c rest ih =>
    refine ⟨fun hc => ?_, ih fun hm => h (List.mem_cons_of_mem _ hm)⟩
    exact absurd (hc ▸ List.mem_cons_self) h

theorem joinable_bare : Joinable fun s => Bare s.toList where
  wording h := bare_of_not_mem h.2
  append ha hb h := by
    rw [String.toList_append]
    exact ha.append hb h

/-- A bare text holds no placeholder with digits. -/
theorem Bare.marks_lexFrom (inside : Bool) {s : List Char} (h : Bare s) :
    ∀ digits ∈ marks (lexFrom inside s), digits = [] := by
  induction inside, s using lexFrom_induction with
  | nil inside =>
    intro digits hd
    cases hd
  | quote inside rest ih =>
    rw [lexFrom_quote]
    exact ih h.2
  | mark rest ih =>
    have hhead : ∀ d ∈ rest.head?, isDigit d = false := h.1 rfl
    have hempty : (∀ c ∈ ([] : List Char), isDigit c = true) := fun c hc => nomatch hc
    obtain ⟨htake, hdrop⟩ := takeWhile_digits hempty hhead
    rw [List.nil_append] at htake hdrop
    rw [hdrop] at ih
    rw [lexFrom_mark, htake, hdrop]
    intro digits hd
    rcases List.mem_cons.1 hd with rfl | hd
    · rfl
    · exact ih h.2 digits hd
  | plain inside c rest hq hm ih =>
    rw [lexFrom_plain rest hq hm]
    exact ih h.2

theorem Bare.numbers {s : List Char} (h : Bare s) {ns : List (Option Nat)}
    (hns : Placeholder.numbers s = .ok ns) : ns = List.replicate ns.length none := by
  obtain ⟨_, rfl⟩ := numbers_eq_ok.1 hns
  rw [List.eq_replicate_iff]
  refine ⟨rfl, fun n hn => ?_⟩
  obtain ⟨digits, hd, rfl⟩ := List.mem_map.1 hn
  rw [h.marks_lexFrom false digits hd]
  rfl

/-- Bare placeholders take one index after another. -/
theorem assign_replicate (p : Int) (n : Nat) :
    assign p (List.replicate n none) = Clause.indexes p n := by
  induction n generalizing p with
  | zero => rfl
  | succ n ih =>
    have hmax : max p (p + 1) = p + 1 := by omega
    rw [List.replicate_succ, assign_cons, Option.elim_none, Clause.indexes_succ, hmax, ih]

theorem highest_replicate (p : Int) (n : Nat) :
    highest p (assign p (List.replicate n none)) = p + n := by
  rw [assign_replicate, Clause.highest_indexes_self]

/-- A bare text that reaches `n` more arguments binds them in order. -/
theorem Bare.resolve {s : String} (h : Bare s.toList) {p : Int} {is : List Int} {n : Nat}
    (his : Placeholder.resolve s p = .ok is) (hreach : highest p is = p + n) :
    is = Clause.indexes p n := by
  obtain ⟨ns, hns, rfl⟩ := resolve_eq_ok.1 his
  rw [h.numbers hns, highest_replicate] at hreach
  have hlength : ns.length = n := by omega
  rw [h.numbers hns, assign_replicate, hlength]

end Querywright.Placeholder
