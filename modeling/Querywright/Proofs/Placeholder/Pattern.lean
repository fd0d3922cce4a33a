/-
  Placeholders by a regular expression. A pattern is matched by trying: alternatives in their
  order, a repetition as often as it goes, and where the rest does not match, the last choice is
  taken back.

  * `Pattern.ways` lists the ways in which a pattern takes the start of a text, in the order in
    which they are tried; the first one is the match. `Pattern.findAll` matches from the left, each
    time after the last match.
  * `tokenPattern` is a literal with doubled quotes, or a `?` with the digits that follow it.
  * `firstWay_literal`: a literal ends where the lexer closes it. When the text ends inside, the
    match is taken back to the last quote.
  * `findAll_tokenPattern`: the pattern finds the placeholders that the lexer finds.
-/
import Querywright.Proofs.Placeholder.Lexing

namespace Querywright

/-! ## Patterns -/

/-- A pattern. -/
inductive Pattern where
  /-- One character of a kind. -/
  | one (kind : Char → Bool)
  | seq (first second : Pattern)
  /-- One pattern, or else another. -/
  | alt (first second : Pattern)
  /-- A pattern any number of times, as often as it goes. -/
  | many (body : Pattern)
  /-- A pattern whose text is kept. -/
  | group (body : Pattern)

namespace Pattern

/-- A way to take the start of a text: what is taken, the text of the last group in it, and what
is left. -/
structure Way where
  taken : List Char
  kept : Option (List Char) := none
  rest : List Char
  deriving DecidableEq, Repr

/-- One way after another. -/
def Way.before (first second : Way) : Way where
  taken := first.taken ++ second.taken
  kept := second.kept <|> first.kept
  rest := second.rest

/-- To take nothing. -/
def Way.nothing (s : List Char) : Way := { taken := [], rest := s }

/-- The ways to repeat a step up to a number of times, the longest tried first. A step that takes
nothing is not repeated. -/
def repetitions (step : List Char → List Way) : Nat → List Char → List Way
  | 0, s => [.nothing s]
  | n + 1, s =>
    ((step s).filter fun w => !w.taken.isEmpty).flatMap
      (fun w => (repetitions step n w.rest).map w.before) ++ [.nothing s]

/-- The ways to take the start of a text, in the order in which they are tried. A repetition takes
at least one character each time, so the length of the text bounds it. -/
def ways : Pattern → List Char → List Way
  | one _, [] => []
  | one kind, c :: rest => if kind c then [{ taken := [c], rest }] else []
  | seq first second, s => (ways first s).flatMap fun w => (ways second w.rest).map w.before
  | alt first second, s => ways first s ++ ways second s
  | many body, s => repetitions (ways body) s.length s
  | group body, s => (ways body s).map fun w => { w with kept := some w.taken }

/-- The match at the start of a text. -/
def firstWay (p : Pattern) (s : List Char) : Option Way := (p.ways s).head?

/-- A match in a text. -/
structure Found where
  start : Nat
  stop : Nat
  kept : Option (List Char)
  deriving DecidableEq, Repr

/-- The matches in a text that begins at a position, after characters that a match has taken. -/
def findFrom (p : Pattern) (position : Nat) : Nat → List Char → List Found
  | _, [] => []
  | taken + 1, _ :: rest => findFrom p (position + 1) taken rest
  | 0, c :: rest =>
    match p.firstWay (c :: rest) with
    | none => findFrom p (position + 1) 0 rest
    | some w =>
      ⟨position, position + w.taken.length, w.kept⟩
        :: findFrom p (position + 1) (w.taken.length - 1) rest

/-- The matches in a text. -/
def findAll (p : Pattern) (s : List Char) : List Found := findFrom p 0 0 s

/-- A character as a pattern. -/
def char (c : Char) : Pattern := one (· == c)

/-! ## One step -/

variable {p q : Pattern} {c : Char} {s rest : List Char}

theorem ways_one (kind : Char → Bool) (c : Char) (rest : List Char) :
    (one kind).ways (c :: rest) = if kind c then [{ taken := [c], rest }] else [] := rfl

theorem ways_seq (p q : Pattern) (s : List Char) :
    (p.seq q).ways s = (p.ways s).flatMap fun w => (q.ways w.rest).map w.before := rfl

theorem ways_alt (p q : Pattern) (s : List Char) : (p.alt q).ways s = p.ways s ++ q.ways s := rfl

theorem ways_group (p : Pattern) (s : List Char) :
    p.group.ways s = (p.ways s).map fun w => { w with kept := some w.taken } := rfl

theorem repetitions_zero (step : List Char → List Way) (s : List Char) :
    repetitions step 0 s = [.nothing s] := rfl

theorem repetitions_succ (step : List Char → List Way) (n : Nat) (s : List Char) :
    repetitions step (n + 1) s =
      ((step s).filter fun w => !w.taken.isEmpty).flatMap
        (fun w => (repetitions step n w.rest).map w.before) ++ [.nothing s] := rfl

theorem findFrom_cons (p : Pattern) (position : Nat) (c : Char) (rest : List Char) :
    p.findFrom position 0 (c :: rest) = match p.firstWay (c :: rest) with
      | none => p.findFrom (position + 1) 0 rest
      | some w =>
        ⟨position, position + w.taken.length, w.kept⟩
          :: p.findFrom (position + 1) (w.taken.length - 1) rest := rfl

/-! ## What a pattern takes first -/

theorem findFrom_none {position : Nat} (h : p.firstWay (c :: rest) = none) :
    findFrom p position 0 (c :: rest) = findFrom p (position + 1) 0 rest := by
  rw [findFrom_cons, h]

theorem findFrom_skip (position : Nat) (taken rest : List Char) :
    findFrom p position taken.length (taken ++ rest) =
      findFrom p (position + taken.length) 0 rest := by
  induction taken generalizing position with
  | nil => rfl
  | cons c taken ih =>
    have htaken : p.findFrom position (taken.length + 1) (c :: (taken ++ rest)) =
        p.findFrom (position + 1) taken.length (taken ++ rest) := rfl
    rw [List.length_cons, List.cons_append, htaken, ih, Nat.add_right_comm, Nat.add_assoc]

/-- After a match the search goes on behind it. -/
theorem findFrom_some {position : Nat} {taken : List Char} {kept : Option (List Char)}
    (h : p.firstWay (c :: taken ++ rest) = some ⟨c :: taken, kept, rest⟩) :
    findFrom p position 0 (c :: taken ++ rest) =
      ⟨position, position + (taken.length + 1), kept⟩
        :: findFrom p (position + (taken.length + 1)) 0 rest := by
  rw [List.cons_append] at h ⊢
  rw [findFrom_cons, h]
  simp only [List.length_cons, Nat.add_sub_cancel]
  rw [findFrom_skip, Nat.add_right_comm, Nat.add_assoc]

theorem ways_char (c d : Char) (rest : List Char) :
    (char c).ways (d :: rest) = if d = c then [{ taken := [d], rest }] else [] := by
  simp only [char, ways_one, beq_iff_eq]

/-- A character before another pattern. -/
theorem ways_char_seq (c : Char) (rest : List Char) :
    ((char c).seq p).ways (c :: rest) =
      (p.ways rest).map (Way.before { taken := [c], rest }) := by
  rw [ways_seq, ways_char, if_pos rfl, List.flatMap_singleton]

theorem ways_char_seq_ne {d : Char} (h : d ≠ c) (rest : List Char) :
    ((char c).seq p).ways (d :: rest) = [] := by
  rw [ways_seq, ways_char, if_neg h, List.flatMap_nil]

/-- Characters of a kind are taken as far as they go. -/
theorem head?_repetitions_one (kind : Char → Bool) {n : Nat} {s : List Char} (h : s.length ≤ n) :
    (repetitions (ways (one kind)) n s).head?
      = some { taken := s.takeWhile kind, rest := s.dropWhile kind } := by
  induction n generalizing s with
  | zero =>
    cases List.length_eq_zero_iff.1 (Nat.le_zero.1 h)
    rfl
  | succ n ih =>
    cases s with
    | nil => rfl
    | cons c rest =>
      cases hc : kind c with
      | false => simp [repetitions_succ, ways_one, hc, Way.nothing]
      | true =>
        have hrest := ih (s := rest) (by simpa using h)
        simp [repetitions_succ, ways_one, hc, List.head?_append, hrest, Way.before]

theorem firstWay_many_one (kind : Char → Bool) (s : List Char) :
    ((one kind).many).firstWay s
      = some { taken := s.takeWhile kind, rest := s.dropWhile kind } :=
  head?_repetitions_one kind (Nat.le_refl _)

end Pattern

namespace Placeholder

open Pattern (Way)

/-! ## The pattern of placeholders -/

/-- What a literal holds, a piece at a time: any character but a quote, or two quotes. -/
def literalPiece : Pattern :=
  .alt (.one (· != quote)) (.seq (.char quote) (.char quote))

/-- The rest of a literal after the quote that opens it. -/
def literalRest : Pattern := .seq literalPiece.many (.char quote)

/-- A literal, or a `?` and the digits after it, which are kept. -/
def tokenPattern : Pattern :=
  .alt (.seq (.char quote) literalRest) (.seq (.char '?') (.group (Pattern.one Text.isDigit).many))

/-- The placeholder that a match is; a literal is none. -/
def tokenOf? (f : Pattern.Found) : Option Token :=
  f.kept.map fun digits => ⟨f.start, f.stop, number? digits⟩

/-! ## The rest of a literal -/

/-- Pieces up to a number, and the quote that closes. -/
def closings (n : Nat) (s : List Char) : List Way :=
  (Pattern.repetitions literalPiece.ways n s).flatMap fun w =>
    ((Pattern.char quote).ways w.rest).map w.before

theorem ways_literalRest (s : List Char) : literalRest.ways s = closings s.length s := rfl

theorem nothing_before (s : List Char) : (Way.nothing s).before = id := by
  funext w
  simp [Way.before, Way.nothing]

theorem before_before (u v w : Way) : u.before (v.before w) = (u.before v).before w := by
  simp only [Way.before, List.append_assoc]
  cases w.kept <;> rfl

theorem closings_zero (s : List Char) : closings 0 s = (Pattern.char quote).ways s := by
  rw [closings, Pattern.repetitions_zero, List.flatMap_singleton, nothing_before, List.map_id]
  rfl

/-- What is tried: each piece and then the rest of the literal, and at last the quote that closes
at once. -/
theorem closings_succ (n : Nat) (s : List Char) :
    closings (n + 1) s =
      ((literalPiece.ways s).filter fun w => !w.taken.isEmpty).flatMap
        (fun w => (closings n w.rest).map w.before) ++ (Pattern.char quote).ways s := by
  rw [closings, Pattern.repetitions_succ, List.flatMap_append, List.flatMap_singleton,
    nothing_before, List.map_id, List.flatMap_assoc]
  refine congrArg (List.flatMap · _ ++ _) (funext fun w => ?_)
  rw [closings, List.flatMap_map, List.map_flatMap]
  refine congrArg (List.flatMap · _) (funext fun v => ?_)
  rw [List.map_map]
  exact List.map_congr_left fun u _ => (before_before w v u).symm

theorem ways_literalPiece {c : Char} (hc : c ≠ quote) (rest : List Char) :
    literalPiece.ways (c :: rest) = [{ taken := [c], rest }] := by
  rw [literalPiece, Pattern.ways_alt, Pattern.ways_one, if_pos (bne_iff_ne.2 hc),
    Pattern.ways_char_seq_ne hc, List.append_nil]

theorem ways_literalPiece_quote (rest : List Char) :
    literalPiece.ways (quote :: rest) =
      ((Pattern.char quote).ways rest).map (Way.before { taken := [quote], rest }) := by
  rw [literalPiece, Pattern.ways_alt, Pattern.ways_one, Pattern.ways_char_seq]
  rfl

theorem closings_plain (n : Nat) {c : Char} (hc : c ≠ quote) (rest : List Char) :
    closings (n + 1) (c :: rest) = (closings n rest).map (Way.before { taken := [c], rest }) := by
  rw [closings_succ, Pattern.ways_char, if_neg hc, List.append_nil, ways_literalPiece hc]
  simp

theorem closings_doubled (n : Nat) (rest : List Char) :
    closings (n + 1) (quote :: quote :: rest) =
      (closings n rest).map (Way.before { taken := [quote, quote], rest })
        ++ [{ taken := [quote], rest := quote :: rest }] := by
  rw [closings_succ, Pattern.ways_char, if_pos rfl, ways_literalPiece_quote, Pattern.ways_char,
    if_pos rfl]
  simp [Way.before]

theorem closings_quote (n : Nat) {rest : List Char} (h : rest.head? ≠ some quote) :
    closings (n + 1) (quote :: rest) = [{ taken := [quote], rest }] := by
  have hnone : (Pattern.char quote).ways rest = [] := by
    cases rest with
    | nil => rfl
    | cons c rest =>
      have hc : c ≠ quote := fun he => h (congrArg some he)
      rw [Pattern.ways_char, if_neg hc]
  rw [closings_succ, Pattern.ways_char, if_pos rfl, ways_literalPiece_quote, hnone]
  rfl

/-- The rest of a literal takes a text up to a quote, and the lexer closes the literal there. -/
structure Closes (w : Way) (s : List Char) : Prop where
  kept : w.kept = none
  whole : w.taken ++ w.rest = s
  lexed : lexFrom true s = w.taken.map .plain ++ lexFrom false w.rest

theorem Closes.before_plain {w : Way} {s : List Char} (h : Closes w s) {c : Char} (hc : c ≠ quote) :
    Closes (Way.before { taken := [c], rest := s } w) (c :: s) where
  kept := by rw [Way.before, h.kept]; rfl
  whole := congrArg (c :: ·) h.whole
  lexed := by
    rw [lexFrom_plain s hc fun _ => rfl, h.lexed]
    rfl

/-- Two quotes close a literal and open another one, which closes too. -/
theorem Closes.before_doubled {w : Way} {s : List Char} (h : Closes w s) (hs : quote ∈ s) :
    Closes (Way.before { taken := [quote, quote], rest := s } w) (quote :: quote :: s) where
  kept := by rw [Way.before, h.kept]; rfl
  whole := congrArg (quote :: quote :: ·) h.whole
  lexed := by
    have hopens : opens (opens true (quote :: s)) s = true := by simp [opens, hs]
    rw [lexFrom_quote, lexFrom_quote, hopens, h.lexed]
    rfl

theorem closes_quote (s : List Char) : Closes { taken := [quote], rest := s } (quote :: s) where
  kept := rfl
  whole := rfl
  lexed := lexFrom_quote true s

/-- Without a quote the rest of a literal does not match. With one, the way that is tried first
ends where the lexer closes the literal. -/
theorem head?_closings {n : Nat} {s : List Char} (h : s.length ≤ n) :
    (quote ∉ s ∧ (closings n s).head? = none) ∨
      (quote ∈ s ∧ ∃ w, (closings n s).head? = some w ∧ Closes w s) := by
  induction n generalizing s with
  | zero =>
    cases List.length_eq_zero_iff.1 (Nat.le_zero.1 h)
    exact .inl ⟨List.not_mem_nil, rfl⟩
  | succ n ih =>
    cases s with
    | nil => exact .inl ⟨List.not_mem_nil, rfl⟩
    | cons c rest =>
      by_cases hc : c = quote
      · subst hc
        refine .inr ⟨List.mem_cons_self, ?_⟩
        by_cases hdouble : rest.head? = some quote
        · obtain ⟨more, rfl⟩ := List.head?_eq_some_iff.1 hdouble
          rw [closings_doubled, List.head?_append, List.head?_map]
          -- the longer way is tried first; without a quote in it, the last one is given back
          rcases ih (s := more) (by simp at h; omega) with ⟨-, hnone⟩ | ⟨hmem, w, hw, hcloses⟩
          · exact ⟨_, by rw [hnone]; rfl, closes_quote (quote :: more)⟩
          · exact ⟨_, by rw [hw]; rfl, hcloses.before_doubled hmem⟩
        · exact ⟨_, by rw [closings_quote n hdouble]; rfl, closes_quote rest⟩
      · rw [closings_plain n hc, List.head?_map]
        rcases ih (s := rest) (by simpa using h) with ⟨hnot, hnone⟩ | ⟨hmem, w, hw, hcloses⟩
        · exact .inl ⟨by simp [hnot, Ne.symm hc], by rw [hnone]; rfl⟩
        · exact .inr ⟨List.mem_cons_of_mem _ hmem, _, by rw [hw]; rfl, hcloses.before_plain hc⟩

/-- What stands after the quote that opens a literal, up to the quote that closes it. -/
inductive LiteralTail : List Char → Prop where
  | close : LiteralTail [quote]
  | char {c : Char} {tail : List Char} (hc : c ≠ quote) : LiteralTail tail → LiteralTail (c :: tail)
  | doubled {tail : List Char} : LiteralTail tail → LiteralTail (quote :: quote :: tail)

theorem literalTail_of_mem_closings {n : Nat} {s : List Char} {w : Way} (h : w ∈ closings n s) :
    LiteralTail w.taken := by
  induction n generalizing s w with
  | zero =>
    rw [closings_zero] at h
    cases s with
    | nil => cases h
    | cons c rest =>
      rw [Pattern.ways_char] at h
      split at h
      · rename_i hc
        rw [List.mem_singleton.1 h, hc]
        exact .close
      · cases h
  | succ n ih =>
    cases s with
    | nil => cases h
    | cons c rest =>
      by_cases hc : c = quote
      · subst hc
        by_cases hdouble : rest.head? = some quote
        · obtain ⟨more, rfl⟩ := List.head?_eq_some_iff.1 hdouble
          rw [closings_doubled, List.mem_append, List.mem_map, List.mem_singleton] at h
          obtain ⟨v, hv, rfl⟩ | rfl := h
          · exact .doubled (ih hv)
          · exact .close
        · rw [closings_quote n hdouble, List.mem_singleton] at h
          rw [h]
          exact .close
      · rw [closings_plain n hc, List.mem_map] at h
        obtain ⟨v, hv, rfl⟩ := h
        exact .char hc (ih hv)

/-! ## One match -/

/-- A literal is matched before anything else that does not begin with a quote. -/
theorem firstWay_literalOr {other : Pattern} {rest : List Char}
    (hother : other.ways (quote :: rest) = []) :
    (quote ∉ rest ∧
        (Pattern.alt (.seq (.char quote) literalRest) other).firstWay (quote :: rest) = none) ∨
      (quote ∈ rest ∧ ∃ w, Closes w rest ∧ LiteralTail w.taken ∧
        (Pattern.alt (.seq (.char quote) literalRest) other).firstWay (quote :: rest)
          = some { taken := quote :: w.taken, rest := w.rest }) := by
  have hfirst : (Pattern.alt (.seq (.char quote) literalRest) other).firstWay (quote :: rest) =
      (closings rest.length rest).head?.map (Way.before { taken := [quote], rest }) := by
    rw [Pattern.firstWay, Pattern.ways_alt, Pattern.ways_char_seq, hother, List.append_nil,
      List.head?_map, ways_literalRest]
  rcases head?_closings (Nat.le_refl rest.length) with ⟨hnot, hnone⟩ | ⟨hmem, w, hw, hcloses⟩
  · exact .inl ⟨hnot, by rw [hfirst, hnone]; rfl⟩
  · refine .inr ⟨hmem, w, hcloses, literalTail_of_mem_closings (List.mem_of_head? hw), ?_⟩
    rw [hfirst, hw, Option.map_some, Way.before, hcloses.kept]
    rfl

theorem firstWay_literal (rest : List Char) :
    (quote ∉ rest ∧ tokenPattern.firstWay (quote :: rest) = none) ∨
      (quote ∈ rest ∧ ∃ w, Closes w rest ∧ LiteralTail w.taken ∧
        tokenPattern.firstWay (quote :: rest)
          = some { taken := quote :: w.taken, rest := w.rest }) :=
  firstWay_literalOr (Pattern.ways_char_seq_ne (by decide) rest)

theorem firstWay_mark (rest : List Char) :
    tokenPattern.firstWay ('?' :: rest) =
      some ⟨'?' :: rest.takeWhile Text.isDigit, some (rest.takeWhile Text.isDigit),
        rest.dropWhile Text.isDigit⟩ := by
  have hdigits := Pattern.firstWay_many_one Text.isDigit rest
  rw [Pattern.firstWay] at hdigits
  rw [tokenPattern, Pattern.firstWay, Pattern.ways_alt, Pattern.ways_char_seq_ne (by decide),
    Pattern.ways_char_seq, List.nil_append, Pattern.ways_group, List.head?_map, List.head?_map, hdigits]
  rfl

theorem firstWay_plain {c : Char} (hq : c ≠ quote) (hm : c ≠ '?') (rest : List Char) :
    tokenPattern.firstWay (c :: rest) = none := by
  rw [tokenPattern, Pattern.firstWay, Pattern.ways_alt, Pattern.ways_char_seq_ne hq,
    Pattern.ways_char_seq_ne hm]
  rfl

/-! ## All matches -/

theorem tokensFrom_plain (position : Nat) (cs : List Char) (ls : List Lexeme) :
    tokensFrom position (cs.map .plain ++ ls) = tokensFrom (position + cs.length) ls := by
  induction cs generalizing position with
  | nil => rfl
  | cons c cs ih =>
    rw [List.map_cons, List.cons_append, tokensFrom, ih, List.length_cons, Nat.add_right_comm,
      Nat.add_assoc]

/-- Outside a literal the pattern finds what the lexer finds. -/
theorem findFrom_tokenPattern (position : Nat) (s : List Char) :
    (tokenPattern.findFrom position 0 s).filterMap tokenOf?
      = tokensFrom position (lexFrom false s) := by
  -- a match takes several characters at once, so the induction is on the length
  induction hn : s.length using Nat.strongRecOn generalizing position s with
  | _ n ih =>
    cases s with
    | nil => rfl
    | cons c rest =>
      have hlen : rest.length < n := by rw [← hn]; exact Nat.lt_succ_self _
      by_cases hq : c = quote
      · subst hq
        rcases firstWay_literal rest with ⟨hnot, hnone⟩ | ⟨hmem, w, hcloses, -, hw⟩
        · have hopens : opens false rest = false := by simp [opens, hnot]
          rw [Pattern.findFrom_none hnone, ih _ hlen (position + 1) rest rfl, lexFrom_quote, hopens]
          rfl
        · have hopens : opens false rest = true := by simp [opens, hmem]
          have hwhole : quote :: rest = quote :: w.taken ++ w.rest := by
            rw [List.cons_append, hcloses.whole]
          have hshort : w.rest.length < n := by
            have := congrArg List.length hcloses.whole
            rw [List.length_append] at this
            omega
          rw [hwhole] at hw
          rw [lexFrom_quote, hopens, hcloses.lexed, hwhole, Pattern.findFrom_some hw,
            List.filterMap_cons_none rfl, ih _ hshort _ w.rest rfl, tokensFrom, tokensFrom_plain]
          congr 1
          omega
      · by_cases hm : c = '?'
        · subst hm
          have hsplit := List.takeWhile_append_dropWhile (p := Text.isDigit) (l := rest)
          have hshort : (rest.dropWhile Text.isDigit).length < n :=
            Nat.lt_of_le_of_lt (List.dropWhile_sublist _).length_le hlen
          have hw := firstWay_mark rest
          have hwhole : '?' :: rest
              = '?' :: rest.takeWhile Text.isDigit ++ rest.dropWhile Text.isDigit := by
            rw [List.cons_append, hsplit]
          rw [hwhole] at hw
          rw [lexFrom_mark, tokensFrom, hwhole, Pattern.findFrom_some hw,
            List.filterMap_cons_some (f := tokenOf?) rfl, ih _ hshort _ _ rfl]
          simp only [Nat.add_assoc, Nat.add_comm 1]
        · rw [Pattern.findFrom_none (firstWay_plain hq hm rest),
            ih _ hlen (position + 1) rest rfl, lexFrom_plain rest hq fun h => absurd h hm]
          rfl

theorem findAll_tokenPattern (s : List Char) :
    (tokenPattern.findAll s).filterMap tokenOf? = tokensFrom 0 (lex s) :=
  findFrom_tokenPattern 0 s

end Placeholder
end Querywright
