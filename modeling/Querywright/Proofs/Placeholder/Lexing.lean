/-
  How texts with placeholders are split.

  * `lexFrom_induction` is the induction that follows the lexer: a quote, a placeholder with all
    of its digits, or any other character.
  * `unlex_lexFrom`: splitting loses nothing. `lexFrom_unlex`: a list of lexemes that is `Lexed`
    is what its text splits into.
  * `lexFrom_append`: a text that leaves no literal open splits on its own, whatever follows,
    unless the digits that follow continue its last placeholder (`Continues`).
    `lex_mark`: what splits behind such a text at a placeholder.
-/
import Querywright.Placeholder

namespace Querywright.Placeholder

open Text

/-! ## The steps of the lexer -/

theorem isDigit_quote : isDigit quote = false := by decide

theorem isDigit_mark : isDigit '?' = false := by decide

theorem ne_quote_of_isDigit {c : Char} (h : isDigit c = true) : c ≠ quote := by
  rintro rfl
  simp [isDigit_quote] at h

theorem ne_mark_of_isDigit {c : Char} (h : isDigit c = true) : c ≠ '?' := by
  rintro rfl
  simp [isDigit_mark] at h

theorem lexFrom_cons (inside : Bool) (c : Char) (rest : List Char) :
    lexFrom inside (c :: rest) =
      if c = quote then .plain c :: lexFrom (opens inside rest) rest
      else if c = '?' ∧ !inside then
        .mark (rest.takeWhile isDigit) :: (lexFrom inside rest).drop (rest.takeWhile isDigit).length
      else .plain c :: lexFrom inside rest := rfl

theorem lexFrom_quote (inside : Bool) (rest : List Char) :
    lexFrom inside (quote :: rest) = .plain quote :: lexFrom (opens inside rest) rest := by
  rw [lexFrom_cons, if_pos rfl]

theorem lexFrom_plain {inside : Bool} {c : Char} (rest : List Char) (hq : c ≠ quote)
    (hm : c = '?' → inside = true) :
    lexFrom inside (c :: rest) = .plain c :: lexFrom inside rest := by
  have h : ¬ (c = '?' ∧ (!inside) = true) := by
    rintro ⟨h1, h2⟩
    simp [hm h1] at h2
  rw [lexFrom_cons, if_neg hq, if_neg h]

/-- Digits that follow no placeholder are plain characters. -/
theorem lexFrom_digits (inside : Bool) (ds rest : List Char) (hd : ∀ c ∈ ds, isDigit c = true) :
    lexFrom inside (ds ++ rest) = ds.map .plain ++ lexFrom inside rest := by
  induction ds with
  | nil => rfl
  | cons d ds ih =>
    have h1 := hd d List.mem_cons_self
    rw [List.cons_append, lexFrom_plain _ (ne_quote_of_isDigit h1)
      (fun h => absurd h (ne_mark_of_isDigit h1)), ih fun c hc => hd c (List.mem_cons_of_mem _ hc)]
    rfl

theorem isDigit_of_mem_takeWhile {s : List Char} {c : Char} (h : c ∈ s.takeWhile isDigit) :
    isDigit c = true :=
  List.all_eq_true.1 (List.all_takeWhile (p := isDigit)) c h

/-- A placeholder takes all the digits that follow it. -/
theorem lexFrom_mark (rest : List Char) :
    lexFrom false ('?' :: rest) =
      .mark (rest.takeWhile isDigit) :: lexFrom false (rest.dropWhile isDigit) := by
  have hq : '?' ≠ quote := by decide
  have h := lexFrom_digits false (rest.takeWhile isDigit) (rest.dropWhile isDigit)
    fun c hc => isDigit_of_mem_takeWhile hc
  rw [List.takeWhile_append_dropWhile] at h
  rw [lexFrom_cons, if_neg hq, if_pos ⟨rfl, rfl⟩, h]
  simp

/-- Induction along the lexer. -/
theorem lexFrom_induction {motive : Bool → List Char → Prop}
    (nil : ∀ inside, motive inside [])
    (quote : ∀ inside rest, motive (opens inside rest) rest → motive inside (quote :: rest))
    (mark : ∀ rest, motive false (rest.dropWhile isDigit) → motive false ('?' :: rest))
    (plain : ∀ inside c rest, c ≠ Placeholder.quote → (c = '?' → inside = true) →
      motive inside rest → motive inside (c :: rest))
    (inside : Bool) (s : List Char) : motive inside s := by
  -- a placeholder drops its digits at once, so the induction is on the length
  induction hn : s.length using Nat.strongRecOn generalizing inside s with
  | _ n ih =>
    cases s with
    | nil => exact nil inside
    | cons c rest =>
      have hlen : rest.length < n := by rw [← hn]; exact Nat.lt_succ_self _
      by_cases hq : c = Placeholder.quote
      · rw [hq]
        exact quote inside rest (ih _ hlen _ rest rfl)
      · by_cases hm : c = '?' ∧ inside = false
        · obtain ⟨rfl, rfl⟩ := hm
          have hdrop := (List.dropWhile_sublist isDigit (l := rest)).length_le
          exact mark rest (ih _ (by omega) false _ rfl)
        · refine plain inside c rest hq (fun h => ?_) (ih _ hlen inside rest rfl)
          cases inside with
          | true => rfl
          | false => exact absurd ⟨h, rfl⟩ hm

/-! ## Nothing is lost -/

@[simp] theorem unlex_nil : unlex [] = [] := rfl

@[simp] theorem unlex_cons (l : Lexeme) (ls : List Lexeme) : unlex (l :: ls) = l.text ++ unlex ls := rfl

theorem unlex_lexFrom (inside : Bool) (s : List Char) : unlex (lexFrom inside s) = s := by
  induction inside, s using lexFrom_induction with
  | nil inside => rfl
  | quote inside rest ih => rw [lexFrom_quote, unlex_cons, ih]; rfl
  | mark rest ih =>
    rw [lexFrom_mark, unlex_cons, ih, Lexeme.text, List.cons_append,
      List.takeWhile_append_dropWhile]
  | plain inside c rest hq hm ih => rw [lexFrom_plain rest hq hm, unlex_cons, ih]; rfl

theorem unlex_lex (s : List Char) : unlex (lex s) = s := unlex_lexFrom false s

/-! ## The lists that texts split into -/

/-- What a text that begins inside or outside a literal splits into: placeholders stand outside,
with all of their digits, and quotes toggle. -/
def Lexed : Bool → List Lexeme → Prop
  | _, [] => True
  | inside, .plain c :: rest =>
    if c = quote then Lexed (opens inside (unlex rest)) rest
    else (c = '?' → inside = true) ∧ Lexed inside rest
  | inside, .mark digits :: rest =>
    inside = false ∧ (∀ c ∈ digits, isDigit c = true) ∧
      (∀ c ∈ (unlex rest).head?, isDigit c = false) ∧ Lexed false rest

theorem lexed_plain {inside : Bool} {c : Char} {rest : List Lexeme} :
    Lexed inside (.plain c :: rest) ↔
      if c = quote then Lexed (opens inside (unlex rest)) rest
      else (c = '?' → inside = true) ∧ Lexed inside rest := Iff.rfl

theorem lexed_mark {inside : Bool} {digits : List Char} {rest : List Lexeme} :
    Lexed inside (.mark digits :: rest) ↔
      inside = false ∧ (∀ c ∈ digits, isDigit c = true) ∧
        (∀ c ∈ (unlex rest).head?, isDigit c = false) ∧ Lexed false rest := Iff.rfl

/-- What follows a character is split on its own. -/
theorem Lexed.tail {inside : Bool} {c : Char} {rest : List Lexeme}
    (h : Lexed inside (.plain c :: rest)) : ∃ i, Lexed i rest := by
  rw [lexed_plain] at h
  split at h
  · exact ⟨_, h⟩
  · exact ⟨_, h.2⟩

theorem isDigit_head?_dropWhile (s : List Char) :
    ∀ c ∈ (s.dropWhile isDigit).head?, isDigit c = false := by
  intro c hc
  have h := List.head?_dropWhile_not isDigit s
  rw [Option.mem_def] at hc
  rw [hc] at h
  simpa using h

theorem lexed_lexFrom (inside : Bool) (s : List Char) : Lexed inside (lexFrom inside s) := by
  induction inside, s using lexFrom_induction with
  | nil inside => trivial
  | quote inside rest ih =>
    rw [lexFrom_quote, lexed_plain, if_pos rfl, unlex_lexFrom]
    exact ih
  | mark rest ih =>
    rw [lexFrom_mark, lexed_mark, unlex_lexFrom]
    exact ⟨rfl, fun c hc => isDigit_of_mem_takeWhile hc, isDigit_head?_dropWhile rest, ih⟩
  | plain inside c rest hq hm ih =>
    rw [lexFrom_plain rest hq hm, lexed_plain, if_neg hq]
    exact ⟨hm, ih⟩

/-- Digits end where the next character is no digit. -/
theorem takeWhile_digits {ds rest : List Char} (hd : ∀ c ∈ ds, isDigit c = true)
    (hr : ∀ c ∈ rest.head?, isDigit c = false) :
    (ds ++ rest).takeWhile isDigit = ds ∧ (ds ++ rest).dropWhile isDigit = rest := by
  have hr' : rest.takeWhile isDigit = [] ∧ rest.dropWhile isDigit = rest := by
    cases rest with
    | nil => exact ⟨rfl, rfl⟩
    | cons c rest => simp [hr c rfl]
  rw [List.takeWhile_append_of_pos hd, List.dropWhile_append_of_pos hd, hr'.1, hr'.2,
    List.append_nil]
  exact ⟨rfl, rfl⟩

theorem lexFrom_unlex {inside : Bool} {ls : List Lexeme} (h : Lexed inside ls) :
    lexFrom inside (unlex ls) = ls := by
  induction ls generalizing inside with
  | nil => rfl
  | cons l rest ih =>
    cases l with
    | plain c =>
      rw [lexed_plain] at h
      by_cases hq : c = quote
      · rw [if_pos hq] at h
        rw [hq, unlex_cons, Lexeme.text, List.singleton_append, lexFrom_quote, ih h]
      · rw [if_neg hq] at h
        rw [unlex_cons, Lexeme.text, List.singleton_append, lexFrom_plain _ hq h.1, ih h.2]
    | mark digits =>
      obtain ⟨rfl, hd, hr, hrest⟩ := h
      obtain ⟨htake, hdrop⟩ := takeWhile_digits hd hr
      rw [unlex_cons, Lexeme.text, List.cons_append, lexFrom_mark, htake, hdrop, ih hrest]

/-! ## Splitting texts one after another -/

/-- No literal is left open. -/
def Balanced (s : List Char) : Prop := s.count quote % 2 = 0

instance (s : List Char) : Decidable (Balanced s) := inferInstanceAs (Decidable (_ = _))

/-- The digits that begin the second text continue a placeholder that ends the first. -/
def Continues (a b : List Char) : Prop :=
  (∃ front digits, a = front ++ '?' :: digits ∧ ∀ c ∈ digits, isDigit c = true) ∧
    ∃ c ∈ b.head?, isDigit c = true

theorem Balanced.append {a b : List Char} (ha : Balanced a) (hb : Balanced b) :
    Balanced (a ++ b) := by
  unfold Balanced at *
  rw [List.count_append]
  omega

theorem count_quote_digits {ds : List Char} (hd : ∀ c ∈ ds, isDigit c = true) :
    ds.count quote = 0 :=
  List.count_eq_zero.2 fun h => ne_quote_of_isDigit (hd _ h) rfl

theorem count_quote_mark {digits : List Char} (hd : ∀ c ∈ digits, isDigit c = true) :
    (Lexeme.mark digits).text.count quote = 0 := by
  rw [Lexeme.text, List.count_cons_of_ne (by decide), count_quote_digits hd]

theorem count_quote_dropWhile (s : List Char) :
    (s.dropWhile isDigit).count quote = s.count quote := by
  conv => rhs; rw [← List.takeWhile_append_dropWhile (p := isDigit) (l := s), List.count_append]
  rw [count_quote_digits fun c hc => isDigit_of_mem_takeWhile hc, Nat.zero_add]

theorem Continues.of_suffix (front : List Char) {a b : List Char} (h : Continues a b) :
    Continues (front ++ a) b := by
  obtain ⟨⟨f, ds, rfl, hd⟩, hb⟩ := h
  exact ⟨⟨front ++ f, ds, by rw [List.append_assoc], hd⟩, hb⟩

/-- A quote of a text that leaves no literal open toggles. -/
theorem opens_of_parity {inside : Bool} {rest : List Char}
    (h : (rest.count quote + 1) % 2 = inside.toNat) : opens inside rest = !inside := by
  cases inside with
  | true => rfl
  | false =>
    have hmem : quote ∈ rest := by
      rw [← List.count_pos_iff]
      simp only [Bool.toNat_false] at h
      omega
    rw [opens, List.contains_iff_mem.2 hmem]
    rfl

/-- It toggles alike whatever follows the text. -/
theorem opens_append {inside : Bool} {rest : List Char} (b : List Char)
    (h : (rest.count quote + 1) % 2 = inside.toNat) :
    opens inside (rest ++ b) = opens inside rest := by
  rw [opens_of_parity h]
  cases inside with
  | true => rfl
  | false =>
    have hopens := opens_of_parity h
    simp only [opens, Bool.not_false, Bool.true_and, List.contains_iff_mem] at hopens ⊢
    exact List.mem_append_left _ hopens

/-- The parity after a quote of a text that leaves no literal open. -/
theorem parity_opens {inside : Bool} {rest : List Char}
    (h : (rest.count quote + 1) % 2 = inside.toNat) :
    rest.count quote % 2 = (opens inside rest).toNat := by
  rw [opens_of_parity h]
  cases inside with
  | true =>
    simp only [Bool.toNat_true] at h
    simp only [Bool.not_true, Bool.toNat_false]
    omega
  | false =>
    simp only [Bool.toNat_false] at h
    simp only [Bool.not_false, Bool.toNat_true]
    omega

theorem lexFrom_append (inside : Bool) (a b : List Char) (hp : a.count quote % 2 = inside.toNat)
    (hc : ¬ Continues a b) : lexFrom inside (a ++ b) = lexFrom inside a ++ lexFrom false b := by
  induction inside, a using lexFrom_induction with
  | nil inside =>
    cases inside with
    | true => simp at hp
    | false => rfl
  | quote inside rest ih =>
    rw [List.count_cons_self] at hp
    rw [List.cons_append, lexFrom_quote, lexFrom_quote, opens_append b hp,
      ih (parity_opens hp) fun h => hc (h.of_suffix [quote])]
    rfl
  | mark rest ih =>
    rw [List.count_cons_of_ne (by decide)] at hp
    have hsplit := List.takeWhile_append_dropWhile (p := isDigit) (l := rest)
    have hdigits : ∀ c ∈ rest.takeWhile isDigit, isDigit c = true :=
      fun c h => isDigit_of_mem_takeWhile h
    -- where the digits of the placeholder reach the end of the text, what follows is no digit
    have hend : ∀ c ∈ (rest.dropWhile isDigit ++ b).head?, isDigit c = false := by
      intro c h
      cases hrest : rest.dropWhile isDigit with
      | nil =>
        rw [hrest, List.nil_append] at h
        rw [hrest, List.append_nil] at hsplit
        refine Bool.eq_false_iff.2 fun hcd => hc ⟨⟨[], rest, rfl, ?_⟩, c, h, hcd⟩
        rwa [hsplit] at hdigits
      | cons x xs =>
        have := isDigit_head?_dropWhile rest
        rw [hrest] at h this
        exact this c (by simpa using h)
    have hih := ih (by rw [count_quote_dropWhile]; exact hp) fun h => hc (by
      have := h.of_suffix ('?' :: rest.takeWhile isDigit)
      rwa [List.cons_append, hsplit] at this)
    have hrest : rest ++ b = rest.takeWhile isDigit ++ (rest.dropWhile isDigit ++ b) := by
      rw [← List.append_assoc, hsplit]
    obtain ⟨htake, hdrop⟩ := takeWhile_digits hdigits hend
    rw [List.cons_append, lexFrom_mark, lexFrom_mark, hrest, htake, hdrop, hih]
    rfl
  | plain inside c rest hq hm ih =>
    rw [List.count_cons_of_ne hq] at hp
    rw [List.cons_append, lexFrom_plain _ hq hm, lexFrom_plain _ hq hm,
      ih hp fun h => hc (h.of_suffix [c])]
    rfl

theorem lex_append {a b : List Char} (ha : Balanced a) (hc : ¬ Continues a b) :
    lex (a ++ b) = lex a ++ lex b :=
  lexFrom_append false a b ha hc

theorem Balanced.of_mark {front digits : List Char} (hd : ∀ c ∈ digits, isDigit c = true)
    (h : Balanced (front ++ '?' :: digits)) : Balanced front := by
  unfold Balanced at *
  rwa [List.count_append, List.count_cons_of_ne (by decide), count_quote_digits hd] at h

/-- A placeholder behind a text that leaves no literal open takes all the digits that follow. -/
theorem lex_mark {front : List Char} (hfront : Balanced front) (rest : List Char) :
    lex (front ++ '?' :: rest) =
      lex front ++ .mark (rest.takeWhile isDigit) :: lex (rest.dropWhile isDigit) := by
  have hc : ¬ Continues front ('?' :: rest) := by
    rintro ⟨-, c, hhead, hdigit⟩
    cases hhead
    simp [isDigit_mark] at hdigit
  rw [lex_append hfront hc]
  exact congrArg (lex front ++ ·) (lexFrom_mark rest)

end Querywright.Placeholder
