/-
  Cutting text at single characters. All functions are structural over `List Char`; the
  `String` forms wrap them.

  * `cutAtFirst c s` gives the part before the first `c` and, if there is one, the part after it.
  * `cutAtLast` is the same for the last occurrence.
  * `replaceChar c new s` writes `new` for every `c`.
-/
namespace Querywright.Text

/-- The text before the first `c`, and the text after it when there is one. -/
def cutAtFirst (c : Char) : List Char → List Char × Option (List Char)
  | [] => ([], none)
  | x :: rest =>
    if x = c then ([], some rest)
    else ((x :: (cutAtFirst c rest).1), (cutAtFirst c rest).2)

theorem cutAtFirst_some {c : Char} {s a b : List Char} (h : cutAtFirst c s = (a, some b)) :
    s = a ++ c :: b := by
  induction s generalizing a with
  | nil => cases h
  | cons x rest ih =>
    by_cases hx : x = c
    · simp only [cutAtFirst, hx, ↓reduceIte, Prod.mk.injEq, Option.some.injEq] at h
      rw [hx, ← h.1, h.2, List.nil_append]
    · simp only [cutAtFirst, hx, ↓reduceIte, Prod.mk.injEq] at h
      rw [← h.1, List.cons_append, ← ih (Prod.ext rfl h.2)]

theorem cutAtFirst_none {c : Char} {s a : List Char} (h : cutAtFirst c s = (a, none)) :
    a = s ∧ c ∉ s := by
  induction s generalizing a with
  | nil => cases h; exact ⟨rfl, List.not_mem_nil⟩
  | cons x rest ih =>
    by_cases hx : x = c
    · simp [cutAtFirst, hx] at h
    · simp only [cutAtFirst, hx, ↓reduceIte, Prod.mk.injEq] at h
      obtain ⟨h1, h2⟩ := ih (Prod.ext rfl h.2)
      exact ⟨h.1.symm.trans (congrArg (x :: ·) h1), by simp [h2, Ne.symm hx]⟩

/-- The text before the last `c` when there is one, and the text after it. -/
def cutAtLast (c : Char) : List Char → Option (List Char) × List Char
  | [] => (none, [])
  | x :: rest =>
    match cutAtLast c rest with
    | (some before, after) => (some (x :: before), after)
    | (none, after) => if x = c then (some [], after) else (none, x :: after)

/-- Cut at every `c`; the parts between them, empty ones kept. -/
def cutAtEvery (c : Char) : List Char → List (List Char)
  | [] => [[]]
  | x :: rest =>
    if x = c then [] :: cutAtEvery c rest
    else match cutAtEvery c rest with
      | [] => [[x]]
      | part :: parts => (x :: part) :: parts

/-- Write `new` for every `c`. -/
def replaceChar (c : Char) (new : List Char) (s : List Char) : List Char :=
  s.flatMap fun x => if x = c then new else [x]

/-- Whether `word` occurs somewhere in the text. -/
def hasWord (word : List Char) : List Char → Bool
  | [] => word.isEmpty
  | x :: rest => word.isPrefixOf (x :: rest) || hasWord word rest

/-- Whether the text begins with `start`. -/
def startsWith (start s : String) : Bool :=
  start.toList.isPrefixOf s.toList

/-- Whether every character is ASCII. -/
def isAscii (s : List Char) : Bool :=
  s.all fun c => c.toNat < 128

end Querywright.Text
