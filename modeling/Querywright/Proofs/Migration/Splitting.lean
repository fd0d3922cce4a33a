/-
  How scripts are split.

  * `cutFrom_append`: a script is cut at a semicolon with an even number of quotes before it, or none
    after it. `cutFrom_cases`: a script that is cut has such a semicolon.
  * `separators s` are the places of these semicolons, and `cutAt` cuts there:
    `cutAt_separators`. They are what `separatorPattern` finds.
  * `Separated`: pieces that are cut no further, none of which leaves a literal open for a later one.
    A script's pieces are so, and so are they without blanks; with semicolons between them they are
    cut into the same pieces again.
  * `split_by_semicolons`: splitting a script, a statement, and the statements of a script.
-/
import Querywright.Migration.Script
import Querywright.Proofs.Placeholder.Positions

namespace Querywright.Text

/-! ## Blanks at the ends -/

theorem exists_stripBack (s : List Char) : ∃ b, s = stripBack s ++ b ∧ ∀ c ∈ b, isBlank c = true := by
  induction s with
  | nil => exact ⟨[], rfl, nofun⟩
  | cons c rest ih =>
    obtain ⟨b, hb, hblank⟩ := ih
    unfold stripBack
    split
    · rename_i hnil
      rw [hnil, List.nil_append] at hb
      by_cases hc : isBlank c = true
      · rw [if_pos hc, hb]
        exact ⟨c :: b, rfl, List.forall_mem_cons.2 ⟨hc, hblank⟩⟩
      · rw [if_neg hc, hb]
        exact ⟨b, rfl, hblank⟩
    · exact ⟨b, congrArg (c :: ·) hb, hblank⟩

theorem stripBack_stripBack (s : List Char) : stripBack (stripBack s) = stripBack s := by
  induction s with
  | nil => rfl
  | cons c rest ih =>
    rw [stripBack]
    split
    · by_cases hc : isBlank c = true
      · rw [if_pos hc, stripBack]
      · rw [if_neg hc, stripBack, stripBack]
        exact if_neg hc
    · rename_i hkept
      rw [stripBack, ih]
      split
      · rename_i hnil
        exact absurd hnil hkept
      · rfl

theorem stripFront_stripBack {s : List Char} (h : ∀ c ∈ s.head?, isBlank c = false) :
    stripFront (stripBack s) = stripBack s := by
  obtain ⟨b, hb, -⟩ := exists_stripBack s
  cases hs : stripBack s with
  | nil => rfl
  | cons c rest =>
    rw [hs] at hb
    have hc : isBlank c = false := h c (by rw [hb]; rfl)
    rw [stripFront, List.dropWhile_cons_of_neg (by simp [hc])]

theorem stripChars_stripChars (s : List Char) : stripChars (stripChars s) = stripChars s := by
  have hfront : ∀ c ∈ (stripFront s).head?, isBlank c = false := by
    intro c hc
    have hnot := List.head?_dropWhile_not isBlank s
    rw [← stripFront, Option.mem_def.1 hc] at hnot
    simpa using hnot
  rw [stripChars, stripChars, stripFront_stripBack hfront, stripBack_stripBack]

/-- Stripping takes blanks at the two ends. -/
theorem exists_stripChars (s : List Char) :
    ∃ a b, s = a ++ stripChars s ++ b ∧ (∀ c ∈ a, isBlank c = true) ∧ ∀ c ∈ b, isBlank c = true := by
  obtain ⟨b, hb, hblank⟩ := exists_stripBack (stripFront s)
  refine ⟨s.takeWhile isBlank, b, ?_, fun c hc => ?_, hblank⟩
  · rw [stripChars, List.append_assoc, ← hb, stripFront, List.takeWhile_append_dropWhile]
  · exact List.all_eq_true.1 (List.all_takeWhile (p := isBlank)) c hc

end Querywright.Text

namespace Querywright.Script

open Placeholder

/-! ## The steps of cutting -/

theorem cutFrom_cons (inside : Bool) (c : Char) (rest : List Char) :
    cutFrom inside (c :: rest) =
      if c = quote then extend c (cutFrom (opens inside rest) rest)
      else if c = ';' ∧ !inside then [] :: cutFrom inside rest
      else extend c (cutFrom inside rest) := rfl

theorem cutFrom_quote (inside : Bool) (rest : List Char) :
    cutFrom inside (quote :: rest) = extend quote (cutFrom (opens inside rest) rest) := by
  rw [cutFrom_cons, if_pos rfl]

theorem cutFrom_semicolon (rest : List Char) :
    cutFrom false (';' :: rest) = [] :: cutFrom false rest := by
  rw [cutFrom_cons, if_neg (by decide), if_pos ⟨rfl, rfl⟩]

theorem cutFrom_plain {inside : Bool} {c : Char} (rest : List Char) (hq : c ≠ quote)
    (hs : c = ';' → inside = true) : cutFrom inside (c :: rest) = extend c (cutFrom inside rest) := by
  have hnot : ¬(c = ';' ∧ (!inside) = true) := by
    rintro ⟨hc, hinside⟩
    rw [hs hc] at hinside
    cases hinside
  rw [cutFrom_cons, if_neg hq, if_neg hnot]

/-- Induction along the cutting. -/
theorem cutFrom_induction {motive : Bool → List Char → Prop}
    (nil : ∀ inside, motive inside [])
    (quote : ∀ inside rest, motive (opens inside rest) rest → motive inside (quote :: rest))
    (semicolon : ∀ rest, motive false rest → motive false (';' :: rest))
    (plain : ∀ inside c rest, c ≠ Placeholder.quote → (c = ';' → inside = true) →
      motive inside rest → motive inside (c :: rest))
    (inside : Bool) (s : List Char) : motive inside s := by
  induction s generalizing inside with
  | nil => exact nil inside
  | cons c rest ih =>
    by_cases hq : c = Placeholder.quote
    · rw [hq]
      exact quote inside rest (ih _)
    · by_cases hs : c = ';' ∧ inside = false
      · obtain ⟨rfl, rfl⟩ := hs
        exact semicolon rest (ih false)
      · exact plain inside c rest hq (fun hc => eq_true_of_ne_false fun hi => hs ⟨hc, hi⟩) (ih inside)

theorem extend_ne_nil (c : Char) (pieces : List (List Char)) : extend c pieces ≠ [] := by
  cases pieces <;> exact List.cons_ne_nil _ _

theorem extend_append {pieces : List (List Char)} (h : pieces ≠ []) (c : Char)
    (more : List (List Char)) : extend c (pieces ++ more) = extend c pieces ++ more := by
  cases pieces with
  | nil => exact absurd rfl h
  | cons piece pieces => rfl

theorem cutFrom_ne_nil (inside : Bool) (s : List Char) : cutFrom inside s ≠ [] := by
  induction inside, s using cutFrom_induction with
  | nil inside => exact List.cons_ne_nil _ _
  | quote inside rest ih => rw [cutFrom_quote]; exact extend_ne_nil _ _
  | semicolon rest ih => rw [cutFrom_semicolon]; exact List.cons_ne_nil _ _
  | plain inside c rest hq hs ih => rw [cutFrom_plain rest hq hs]; exact extend_ne_nil _ _

/-! ## Where a script is cut -/

/-- What stands before a semicolon leaves no literal open that is closed after it. The text begins
inside or outside a literal. -/
def Closed (inside : Bool) (before after : List Char) : Prop :=
  before.count quote % 2 = inside.toNat ∨ quote ∉ after

theorem closed_quote {inside opened : Bool} {before after : List Char}
    (h : quote ∈ after → opened = !inside) :
    Closed inside (quote :: before) after ↔ Closed opened before after := by
  by_cases hmem : quote ∈ after
  · have hquote : ¬quote ∉ after := not_not_intro hmem
    have hcount : (quote :: before).count quote = before.count quote + 1 := List.count_cons_self
    rw [Closed, Closed, or_iff_left hquote, or_iff_left hquote, h hmem, hcount]
    cases inside with
    | true => show (_ % 2 = 1) ↔ (_ % 2 = 0); omega
    | false => show (_ % 2 = 0) ↔ (_ % 2 = 1); omega
  · exact iff_of_true (.inr hmem) (.inr hmem)

theorem closed_plain {inside : Bool} {c : Char} {before after : List Char} (h : c ≠ quote) :
    Closed inside (c :: before) after ↔ Closed inside before after := by
  rw [Closed, List.count_cons_of_ne h, Closed]

theorem opens_eq_true {inside : Bool} {rest : List Char} :
    opens inside rest = true ↔ inside = false ∧ quote ∈ rest := by
  simp [opens]

/-- A script is cut at a semicolon before which every literal is closed. -/
theorem cutFrom_append {inside : Bool} {before : List Char} (after : List Char)
    (hinside : inside = true → quote ∈ before) (h : Closed inside before after) :
    cutFrom inside (before ++ ';' :: after) = cutFrom inside before ++ cutFrom false after := by
  induction inside, before using cutFrom_induction with
  | nil inside =>
    cases inside with
    | true => cases hinside rfl
    | false => exact cutFrom_semicolon after
  | quote inside rest ih =>
    have hopens : quote ∈ after → opens inside rest = !inside := by
      intro hmem
      have hparity := h.resolve_right (not_not_intro hmem)
      rw [List.count_cons_self] at hparity
      exact opens_of_parity hparity
    have hsame : opens inside (rest ++ ';' :: after) = opens inside rest := by
      rw [Bool.eq_iff_iff, opens_eq_true, opens_eq_true]
      refine and_congr_right fun houtside => ⟨fun hmem => ?_, List.mem_append_left _⟩
      rcases List.mem_append.1 hmem with hrest | hafter
      · exact hrest
      · have hmem : quote ∈ after := (List.mem_cons.1 hafter).resolve_left (by decide)
        rw [houtside] at hopens
        exact (opens_eq_true.1 (hopens hmem)).2
    rw [List.cons_append, cutFrom_quote, hsame,
      ih (fun hopened => (opens_eq_true.1 hopened).2) ((closed_quote hopens).1 h),
      extend_append (cutFrom_ne_nil _ _), cutFrom_quote]
  | semicolon rest ih =>
    rw [List.cons_append, cutFrom_semicolon, ih nofun ((closed_plain (by decide)).1 h),
      cutFrom_semicolon, List.cons_append]
  | plain inside c rest hq hs ih =>
    have hrest : inside = true → quote ∈ rest := fun hi =>
      (List.mem_cons.1 (hinside hi)).resolve_left (Ne.symm hq)
    rw [List.cons_append, cutFrom_plain _ hq hs, ih hrest ((closed_plain hq).1 h),
      extend_append (cutFrom_ne_nil _ _), cutFrom_plain rest hq hs]

/-- A script that is cut has a semicolon before which every literal is closed, and the first one
ends the first piece. -/
theorem cutFrom_cases {inside : Bool} {s : List Char} (hinside : inside = true → quote ∈ s) :
    cutFrom inside s = [s] ∨ ∃ before after, s = before ++ ';' :: after ∧
      cutFrom inside before = [before] ∧ (inside = true → quote ∈ before) ∧
      Closed inside before after := by
  induction inside, s using cutFrom_induction with
  | nil inside => exact .inl rfl
  | quote inside rest ih =>
    rcases ih fun hopened => (opens_eq_true.1 hopened).2 with
      hwhole | ⟨before, after, rfl, hbefore, hmem, hclosed⟩
    · exact .inl (by rw [cutFrom_quote, hwhole]; rfl)
    · have hopens : quote ∈ after → opens inside (before ++ ';' :: after) = !inside := fun hafter =>
        by simp [opens, hafter]
      -- if the quote opens a literal, then it is closed before the semicolon
      have hsame : opens inside before = opens inside (before ++ ';' :: after) := by
        rw [Bool.eq_iff_iff]
        refine ⟨fun hopened => ?_, fun hopened => ?_⟩
        · obtain ⟨houtside, hquote⟩ := opens_eq_true.1 hopened
          exact opens_eq_true.2 ⟨houtside, List.mem_append_left _ hquote⟩
        · exact opens_eq_true.2 ⟨(opens_eq_true.1 hopened).1, hmem hopened⟩
      refine .inr ⟨quote :: before, after, rfl, ?_, fun _ => List.mem_cons_self,
        (closed_quote hopens).2 hclosed⟩
      rw [cutFrom_quote, hsame, hbefore]
      rfl
  | semicolon rest ih =>
    have houtside : false = true → quote ∈ [] := fun hi => absurd hi Bool.false_ne_true
    exact .inr ⟨[], rest, rfl, rfl, houtside, .inl rfl⟩
  | plain inside c rest hq hs ih =>
    have hrest : inside = true → quote ∈ rest := fun hi =>
      (List.mem_cons.1 (hinside hi)).resolve_left (Ne.symm hq)
    rcases ih hrest with hwhole | ⟨before, after, rfl, hbefore, hmem, hclosed⟩
    · exact .inl (by rw [cutFrom_plain rest hq hs, hwhole]; rfl)
    · refine .inr ⟨c :: before, after, rfl, ?_, fun hi => List.mem_cons_of_mem c (hmem hi),
        (closed_plain hq).2 hclosed⟩
      rw [cutFrom_plain before hq hs, hbefore]
      rfl

theorem cut_ne_nil (s : List Char) : cut s ≠ [] := cutFrom_ne_nil false s

theorem cut_append {before after : List Char} (h : Closed false before after) :
    cut (before ++ ';' :: after) = cut before ++ cut after :=
  cutFrom_append after nofun h

/-- A script is one piece if before none of its semicolons every literal is closed. -/
theorem cut_eq_singleton_iff {s : List Char} :
    cut s = [s] ↔ ∀ before after, s = before ++ ';' :: after → ¬Closed false before after := by
  constructor
  · rintro hwhole before after rfl hclosed
    have hlength := congrArg List.length hwhole
    have hbefore := List.length_pos_iff.2 (cut_ne_nil before)
    have hafter := List.length_pos_iff.2 (cut_ne_nil after)
    rw [cut_append hclosed, List.length_append, List.length_singleton] at hlength
    omega
  · intro h
    rcases @cutFrom_cases false s nofun with hwhole | ⟨before, after, hs, -, -, hclosed⟩
    · exact hwhole
    · exact absurd hclosed (h before after hs)

/-- Induction along the pieces of a script. -/
theorem cut_induction {motive : List Char → Prop}
    (whole : ∀ s, cut s = [s] → motive s)
    (pieces : ∀ piece after, cut piece = [piece] → Closed false piece after →
      cut (piece ++ ';' :: after) = piece :: cut after → motive after →
      motive (piece ++ ';' :: after))
    (s : List Char) : motive s := by
  induction hn : s.length using Nat.strongRecOn generalizing s with
  | _ n ih =>
    rcases @cutFrom_cases false s nofun with
      hwhole | ⟨piece, after, rfl, hpiece, -, hclosed⟩
    · exact whole s hwhole
    · have hshort : after.length < n := by
        rw [← hn, List.length_append, List.length_cons]
        omega
      have hcut : cut (piece ++ ';' :: after) = piece :: cut after := by
        rw [cut_append hclosed, cut, hpiece]
        rfl
      exact pieces piece after hpiece hclosed hcut (ih _ hshort after rfl)

theorem intercalate_cons {ps : List (List Char)} (h : ps ≠ []) (p : List Char) :
    [';'].intercalate (p :: ps) = p ++ ';' :: [';'].intercalate ps := by
  rw [List.intercalate_cons_of_ne_nil h, List.append_assoc]
  rfl

theorem quote_mem_intercalate {ps : List (List Char)} :
    quote ∈ [';'].intercalate ps ↔ ∃ p ∈ ps, quote ∈ p := by
  induction ps with
  | nil => simp
  | cons p ps ih =>
    by_cases hnil : ps = []
    · simp [hnil]
    · have hne : quote ≠ ';' := by decide
      rw [intercalate_cons hnil, List.mem_append, List.mem_cons, ih, or_iff_right hne]
      simp

/-- Only the semicolons between the pieces are lost. -/
theorem intercalate_cut (s : List Char) : [';'].intercalate (cut s) = s := by
  induction s using cut_induction with
  | whole s hwhole => rw [hwhole, List.intercalate_singleton]
  | pieces piece after _ _ hcut ih => rw [hcut, intercalate_cons (cut_ne_nil after), ih]

/-! ## Pieces that are cut no further -/

/-- Pieces that are cut no further. A literal that one of them leaves open is not closed in a later
one. -/
structure Separated (pieces : List (List Char)) : Prop where
  whole : ∀ p ∈ pieces, cut p = [p]
  closed : pieces.Pairwise fun p q => Closed false p q

theorem separated_cut (s : List Char) : Separated (cut s) := by
  induction s using cut_induction with
  | whole s hwhole =>
    rw [hwhole]
    exact ⟨fun p hp => by rw [List.mem_singleton.1 hp, hwhole], List.pairwise_singleton _ _⟩
  | pieces piece after hpiece hclosed hcut ih =>
    rw [hcut]
    refine ⟨List.forall_mem_cons.2 ⟨hpiece, ih.whole⟩,
      List.pairwise_cons.2 ⟨fun q hq => hclosed.imp_right fun hnot hmem => hnot ?_, ih.closed⟩⟩
    rw [← intercalate_cut after]
    exact quote_mem_intercalate.2 ⟨q, hq, hmem⟩

/-- With semicolons between them they are cut into the same pieces. -/
theorem cut_intercalate {pieces : List (List Char)} (hne : pieces ≠ []) (h : Separated pieces) :
    cut ([';'].intercalate pieces) = pieces := by
  induction pieces with
  | nil => exact absurd rfl hne
  | cons p ps ih =>
    obtain ⟨hp, hps⟩ := List.forall_mem_cons.1 h.whole
    obtain ⟨hclosed, hrest⟩ := List.pairwise_cons.1 h.closed
    by_cases hnil : ps = []
    · rw [hnil, List.intercalate_singleton, hp]
    · have hafter : Closed false p ([';'].intercalate ps) := by
        by_cases heven : p.count quote % 2 = 0
        · exact .inl heven
        · refine .inr fun hmem => ?_
          obtain ⟨q, hq, hquote⟩ := quote_mem_intercalate.1 hmem
          exact (hclosed q hq).elim heven fun hnot => hnot hquote
      rw [intercalate_cons hnil, cut_append hafter, hp, ih hnil ⟨hps, hrest⟩]
      rfl

theorem Separated.filter {pieces : List (List Char)} (h : Separated pieces)
    (keep : List Char → Bool) : Separated (pieces.filter keep) :=
  ⟨fun p hp => h.whole p (List.mem_filter.1 hp).1, h.closed.filter keep⟩

/-! ## Pieces without blanks -/

theorem count_quote_blanks {a : List Char} (h : ∀ c ∈ a, Text.isBlank c = true) :
    a.count quote = 0 := by
  refine List.count_eq_zero.2 fun hmem => ?_
  have hquote : Text.isBlank quote = false := by decide
  rw [h quote hmem] at hquote
  cases hquote

theorem count_quote_strip (s : List Char) : (Text.stripChars s).count quote = s.count quote := by
  obtain ⟨a, b, hs, ha, hb⟩ := Text.exists_stripChars s
  have hcount := congrArg (List.count quote) hs
  rw [List.count_append, List.count_append, count_quote_blanks ha, count_quote_blanks hb] at hcount
  omega

theorem quote_mem_strip {s : List Char} : quote ∈ Text.stripChars s ↔ quote ∈ s := by
  rw [← List.count_pos_iff, ← List.count_pos_iff, count_quote_strip]

/-- A piece that is cut no further is not cut without its blanks either. -/
theorem cut_strip {s : List Char} (h : cut s = [s]) :
    cut (Text.stripChars s) = [Text.stripChars s] := by
  rw [cut_eq_singleton_iff] at h ⊢
  rintro before after hstrip hclosed
  obtain ⟨a, b, hs, ha, hb⟩ := Text.exists_stripChars s
  refine h (a ++ before) (after ++ b) ?_ ?_
  · rw [hs, hstrip]
    simp only [List.append_assoc, List.cons_append]
  · rw [Closed, List.count_append, count_quote_blanks ha, Nat.zero_add]
    refine hclosed.imp_right fun hnot hmem => ?_
    rcases List.mem_append.1 hmem with hafter | hblank
    · exact hnot hafter
    · exact absurd hblank (List.count_eq_zero.1 (count_quote_blanks hb))

theorem Separated.strip {pieces : List (List Char)} (h : Separated pieces) :
    Separated (pieces.map Text.stripChars) where
  whole := by
    intro p hp
    obtain ⟨q, hq, rfl⟩ := List.mem_map.1 hp
    exact cut_strip (h.whole q hq)
  closed := by
    refine List.pairwise_map.2 (h.closed.imp fun {p q} hclosed => ?_)
    rw [Closed, count_quote_strip, quote_mem_strip]
    exact hclosed

/-! ## Places of the semicolons -/

/-- Whether a semicolon stands at a place, and no literal is open there. -/
def IsSeparator (s : List Char) (i : Nat) : Prop := s[i]? = some ';' ∧ Outside s i

instance (s : List Char) (i : Nat) : Decidable (IsSeparator s i) :=
  inferInstanceAs (Decidable (_ ∧ _))

/-- The places of the semicolons that separate statements. -/
def separators (s : List Char) : List Nat := (List.range s.length).filter fun i => IsSeparator s i

/-- Cut what follows a place at the places of semicolons. -/
def cutAt (s : List Char) (start : Nat) : List Nat → List (List Char)
  | [] => [s.drop start]
  | i :: is => (s.drop start).take (i - start) :: cutAt s (i + 1) is

/-- The places where a text that begins at a position is cut. -/
def separatorsFrom (inside : Bool) (position : Nat) : List Char → List Nat
  | [] => []
  | c :: rest =>
    if c = quote then separatorsFrom (opens inside rest) (position + 1) rest
    else if c = ';' ∧ !inside then position :: separatorsFrom inside (position + 1) rest
    else separatorsFrom inside (position + 1) rest

section

variable (position : Nat)

theorem separatorsFrom_cons (inside : Bool) (c : Char) (rest : List Char) :
    separatorsFrom inside position (c :: rest) =
      if c = quote then separatorsFrom (opens inside rest) (position + 1) rest
      else if c = ';' ∧ !inside then position :: separatorsFrom inside (position + 1) rest
      else separatorsFrom inside (position + 1) rest := rfl

theorem separatorsFrom_quote (inside : Bool) (rest : List Char) :
    separatorsFrom inside position (quote :: rest) =
      separatorsFrom (opens inside rest) (position + 1) rest := by
  rw [separatorsFrom_cons, if_pos rfl]

theorem separatorsFrom_semicolon (rest : List Char) :
    separatorsFrom false position (';' :: rest) =
      position :: separatorsFrom false (position + 1) rest := by
  rw [separatorsFrom_cons, if_neg (by decide), if_pos ⟨rfl, rfl⟩]

theorem separatorsFrom_plain {inside : Bool} {c : Char} (rest : List Char) (hq : c ≠ quote)
    (hs : c = ';' → inside = true) :
    separatorsFrom inside position (c :: rest) = separatorsFrom inside (position + 1) rest := by
  have hnot : ¬(c = ';' ∧ (!inside) = true) := by
    rintro ⟨hc, hinside⟩
    rw [hs hc] at hinside
    cases hinside
  rw [separatorsFrom_cons, if_neg hq, if_neg hnot]

end

theorem isSeparator_iff {front rest : List Char} {c : Char} :
    IsSeparator (front ++ c :: rest) front.length ↔
      c = ';' ∧ (front.count quote % 2 = 0 ∨ quote ∉ rest) := by
  have hplace : (front ++ c :: rest)[front.length]? = some c := by simp
  have hdrop : (front ++ c :: rest).drop (front.length + 1) = rest := by
    simp [List.drop_append, List.drop_eq_nil_of_le]
  rw [IsSeparator, Outside, List.take_left, hdrop, hplace, Option.some_inj]

/-- A script is cut at the semicolons that the quotes before and after each place tell. -/
theorem separatorsFrom_eq_filter {inside : Bool} {front rest : List Char}
    (h : Within inside front rest) :
    separatorsFrom inside front.length rest =
      (List.range' front.length rest.length).filter fun i => IsSeparator (front ++ rest) i := by
  induction inside, rest using cutFrom_induction generalizing front with
  | nil inside => rfl
  | quote inside rest ih =>
    have hnot : ¬IsSeparator (front ++ quote :: rest) front.length := fun hs =>
      absurd (isSeparator_iff.1 hs).1 (by decide)
    have hrest := ih h.cons_quote
    rw [List.length_append, List.length_singleton, List.append_assoc] at hrest
    rw [separatorsFrom_quote, hrest, List.length_cons, List.range'_succ,
      List.filter_cons_of_neg (by simpa using hnot)]
    rfl
  | semicolon rest ih =>
    have hhere : IsSeparator (front ++ ';' :: rest) front.length :=
      isSeparator_iff.2 ⟨rfl, h.outside⟩
    have hrest := ih (h.cons_plain (by decide))
    rw [List.length_append, List.length_singleton, List.append_assoc] at hrest
    rw [separatorsFrom_semicolon, hrest, List.length_cons, List.range'_succ,
      List.filter_cons_of_pos (by simpa using hhere)]
    rfl
  | plain inside c rest hq hs ih =>
    have hnot : ¬IsSeparator (front ++ c :: rest) front.length := by
      intro hsep
      obtain ⟨hc, houtside⟩ := isSeparator_iff.1 hsep
      obtain ⟨hodd, hmem⟩ := h.inside hq (hs hc)
      rcases houtside with heven | hnone
      · omega
      · exact hnone hmem
    have hrest := ih (h.cons_plain hq)
    rw [List.length_append, List.length_singleton, List.append_assoc] at hrest
    rw [separatorsFrom_plain _ rest hq hs, hrest, List.length_cons, List.range'_succ,
      List.filter_cons_of_neg (by simpa using hnot)]
    rfl

theorem separatorsFrom_zero (s : List Char) : separatorsFrom false 0 s = separators s := by
  have hwithin : Within false [] s := by simp [Within]
  rw [separators, List.range_eq_range']
  exact separatorsFrom_eq_filter hwithin

theorem le_of_mem_separatorsFrom {inside : Bool} {position i : Nat} {rest : List Char}
    (h : i ∈ separatorsFrom inside position rest) : position ≤ i := by
  induction inside, rest using cutFrom_induction generalizing position with
  | nil inside => cases h
  | quote inside rest ih =>
    rw [separatorsFrom_quote] at h
    exact Nat.le_of_succ_le (ih h)
  | semicolon rest ih =>
    rw [separatorsFrom_semicolon] at h
    rcases List.mem_cons.1 h with rfl | h
    · exact Nat.le_refl _
    · exact Nat.le_of_succ_le (ih h)
  | plain inside c rest hq hs ih =>
    rw [separatorsFrom_plain _ rest hq hs] at h
    exact Nat.le_of_succ_le (ih h)

/-- A character before the first place of a cut belongs to the first piece. -/
theorem cutAt_extend {front rest : List Char} {c : Char} {is : List Nat}
    (h : ∀ i ∈ is, front.length < i) :
    cutAt (front ++ c :: rest) front.length is =
      extend c (cutAt (front ++ c :: rest) (front.length + 1) is) := by
  have hhere : (front ++ c :: rest).drop front.length = c :: rest := List.drop_left
  have hnext : (front ++ c :: rest).drop (front.length + 1) = rest := by
    simp [List.drop_append, List.drop_eq_nil_of_le]
  cases is with
  | nil => rw [cutAt, cutAt, hhere, hnext, extend]
  | cons i is =>
    have hlt := h i List.mem_cons_self
    have htake : i - front.length = i - (front.length + 1) + 1 := by omega
    rw [cutAt, cutAt, hhere, hnext, htake, List.take_succ_cons, extend]

theorem cutAt_separatorsFrom (inside : Bool) (front rest : List Char) :
    cutAt (front ++ rest) front.length (separatorsFrom inside front.length rest) =
      cutFrom inside rest := by
  induction inside, rest using cutFrom_induction generalizing front with
  | nil inside => exact congrArg (fun s => [s]) (by simp)
  | quote inside rest ih =>
    have hrest := ih (front ++ [quote])
    rw [List.length_append, List.length_singleton, List.append_assoc, List.singleton_append] at hrest
    rw [separatorsFrom_quote, cutAt_extend fun i hi => le_of_mem_separatorsFrom hi, hrest,
      cutFrom_quote]
  | semicolon rest ih =>
    have hrest := ih (front ++ [';'])
    rw [List.length_append, List.length_singleton, List.append_assoc, List.singleton_append] at hrest
    rw [separatorsFrom_semicolon, cutAt, hrest, cutFrom_semicolon, Nat.sub_self, List.take_zero]
  | plain inside c rest hq hs ih =>
    have hrest := ih (front ++ [c])
    rw [List.length_append, List.length_singleton, List.append_assoc, List.singleton_append] at hrest
    rw [separatorsFrom_plain _ rest hq hs, cutAt_extend fun i hi => le_of_mem_separatorsFrom hi,
      hrest, cutFrom_plain rest hq hs]

theorem cutAt_separators (s : List Char) : cutAt s 0 (separators s) = cut s := by
  rw [← separatorsFrom_zero]
  exact cutAt_separatorsFrom false [] s

/-! ## The pattern of semicolons -/

/-- A literal, or a semicolon. -/
def separatorPattern : Pattern := .alt (.seq (.char quote) literalRest) (.char ';')

/-- The place of a match that is a semicolon. -/
def separatorOf? (s : List Char) (f : Pattern.Found) : Option Nat :=
  if (s.drop f.start).take (f.stop - f.start) = [';'] then some f.start else none

theorem LiteralTail.quote_mem {tail : List Char} (h : LiteralTail tail) : quote ∈ tail := by
  cases h with
  | close => exact List.mem_cons_self
  | char hc h => exact List.mem_cons_of_mem _ (quote_mem h)
  | doubled h => exact List.mem_cons_self

/-- A literal is not cut. -/
theorem separatorsFrom_literal {tail : List Char} (h : LiteralTail tail) (position : Nat)
    (rest : List Char) :
    separatorsFrom true position (tail ++ rest) =
      separatorsFrom false (position + tail.length) rest := by
  induction h generalizing position with
  | close => exact separatorsFrom_quote position true rest
  | char hc _ ih =>
    rw [List.cons_append, separatorsFrom_plain _ _ hc fun _ => rfl, ih, List.length_cons,
      Nat.add_right_comm, Nat.add_assoc]
  | doubled htail ih =>
    have hopens : opens false (_ ++ rest) = true :=
      opens_eq_true.2 ⟨rfl, List.mem_append_left rest (LiteralTail.quote_mem htail)⟩
    rw [List.cons_append, List.cons_append, separatorsFrom_quote, separatorsFrom_quote]
    show separatorsFrom (opens false _) _ _ = _
    rw [hopens, ih, List.length_cons, List.length_cons]
    congr 1
    omega

/-- What a match takes tells whether it is a semicolon. -/
theorem separatorOf?_slice {front taken : List Char} {stop : Nat}
    (h : stop = front.length + taken.length) (rest : List Char) (kept : Option (List Char)) :
    separatorOf? (front ++ (taken ++ rest)) ⟨front.length, stop, kept⟩ =
      if taken = [';'] then some front.length else none := by
  rw [separatorOf?, List.drop_left, h, Nat.add_sub_cancel_left, List.take_left]

theorem firstWay_quote (rest : List Char) :
    (quote ∉ rest ∧ separatorPattern.firstWay (quote :: rest) = none) ∨
      (quote ∈ rest ∧ ∃ w, Closes w rest ∧ LiteralTail w.taken ∧
        separatorPattern.firstWay (quote :: rest)
          = some { taken := quote :: w.taken, rest := w.rest }) :=
  firstWay_literalOr (by rw [Pattern.ways_char, if_neg (by decide)])

theorem firstWay_semicolon (rest : List Char) :
    separatorPattern.firstWay (';' :: rest) = some { taken := [';'], rest } := by
  rw [separatorPattern, Pattern.firstWay, Pattern.ways_alt, Pattern.ways_char_seq_ne (by decide),
    Pattern.ways_char, if_pos rfl]
  rfl

theorem firstWay_other {c : Char} (hq : c ≠ quote) (hs : c ≠ ';') (rest : List Char) :
    separatorPattern.firstWay (c :: rest) = none := by
  rw [separatorPattern, Pattern.firstWay, Pattern.ways_alt, Pattern.ways_char_seq_ne hq,
    Pattern.ways_char, if_neg hs]
  rfl

/-- Outside a literal the pattern finds the semicolons where the script is cut. -/
theorem findFrom_separatorPattern (front rest : List Char) :
    (separatorPattern.findFrom front.length 0 rest).filterMap (separatorOf? (front ++ rest)) =
      separatorsFrom false front.length rest := by
  -- a match takes several characters at once, so the induction is on the length
  induction hn : rest.length using Nat.strongRecOn generalizing front rest with
  | _ n ih =>
    cases rest with
    | nil => rfl
    | cons c rest =>
      have hlen : rest.length < n := by rw [← hn]; exact Nat.lt_succ_self _
      have hnext := ih _ hlen (front ++ [c]) rest rfl
      rw [List.length_append, List.length_singleton, List.append_assoc, List.singleton_append] at hnext
      by_cases hq : c = quote
      · subst hq
        rcases firstWay_quote rest with ⟨hnot, hnone⟩ | ⟨hmem, w, hcloses, htail, hw⟩
        · have hopens : opens false rest = false := by simp [opens, hnot]
          rw [separatorsFrom_quote, hopens, ← hnext, Pattern.findFrom_none hnone]
        · have hopens : opens false rest = true := opens_eq_true.2 ⟨rfl, hmem⟩
          have hshort : w.rest.length < n := by
            have := congrArg List.length hcloses.whole
            rw [List.length_append] at this
            omega
          have hbehind := ih _ hshort (front ++ quote :: w.taken) w.rest rfl
          rw [List.length_append, List.length_cons, List.append_assoc] at hbehind
          have hliteral : separatorOf? (front ++ (quote :: w.taken ++ w.rest))
              ⟨front.length, front.length + (w.taken.length + 1), none⟩ = none :=
            (separatorOf?_slice rfl w.rest none).trans (if_neg (by simp [quote]))
          rw [separatorsFrom_quote, hopens, ← hcloses.whole, separatorsFrom_literal htail]
          rw [← hcloses.whole] at hw
          rw [← List.cons_append, Pattern.findFrom_some hw, List.filterMap_cons_none hliteral,
            hbehind]
          congr 1
          omega
      · by_cases hs : c = ';'
        · subst hs
          have hhere : separatorOf? (front ++ ([';'] ++ rest))
              ⟨front.length, front.length + 1, none⟩ = some front.length :=
            (separatorOf?_slice rfl rest none).trans (if_pos rfl)
          have hfound : separatorPattern.findFrom front.length 0 ([';'] ++ rest) =
              ⟨front.length, front.length + 1, none⟩
                :: separatorPattern.findFrom (front.length + 1) 0 rest :=
            Pattern.findFrom_some (firstWay_semicolon rest)
          rw [separatorsFrom_semicolon, ← hnext, ← List.singleton_append, hfound,
            List.filterMap_cons_some hhere]
        · rw [Pattern.findFrom_none (firstWay_other hq hs rest), hnext,
            separatorsFrom_plain _ rest hq fun h => absurd h hs]

theorem findAll_separatorPattern (s : List Char) :
    (separatorPattern.findAll s).filterMap (separatorOf? s) = separators s := by
  rw [← separatorsFrom_zero]
  exact findFrom_separatorPattern [] s

/-! ## Splitting -/

/-- The pieces of a script without blanks. -/
def pieces (s : List Char) : List (List Char) := ((cut s).map Text.stripChars).filter (· ≠ [])

theorem split_ofList (s : List Char) : split (String.ofList s) = (pieces s).map String.ofList := by
  rw [split, String.toList_ofList, pieces]

theorem separated_pieces (s : List Char) : Separated (pieces s) := (separated_cut s).strip.filter _

/-- Pieces without blanks are neither blank nor changed by stripping. -/
theorem strip_of_mem_pieces {s p : List Char} (h : p ∈ pieces s) :
    p ≠ [] ∧ Text.stripChars p = p := by
  obtain ⟨hp, hne⟩ := List.mem_filter.1 h
  obtain ⟨q, -, rfl⟩ := List.mem_map.1 hp
  exact ⟨by simpa using hne, Text.stripChars_stripChars q⟩

/-- A piece is one piece. -/
theorem pieces_of_mem_pieces {s p : List Char} (h : p ∈ pieces s) : pieces p = [p] := by
  obtain ⟨hne, hstrip⟩ := strip_of_mem_pieces h
  rw [pieces, (separated_pieces s).whole p h, List.map_singleton, hstrip,
    List.filter_cons_of_pos (by simpa using hne), List.filter_nil]

/-- The pieces with semicolons between them have the same pieces. -/
theorem pieces_intercalate (s : List Char) : pieces ([';'].intercalate (pieces s)) = pieces s := by
  by_cases hnil : pieces s = []
  · rw [hnil]
    rfl
  · have hstrip : (pieces s).map Text.stripChars = pieces s := by
      conv => rhs; rw [← List.map_id (pieces s)]
      exact List.map_congr_left fun p hp => (strip_of_mem_pieces hp).2
    have hkept : (pieces s).filter (· ≠ []) = pieces s :=
      List.filter_eq_self.2 fun p hp => by simpa using (strip_of_mem_pieces hp).1
    conv => lhs; rw [pieces, cut_intercalate hnil (separated_pieces s), hstrip, hkept]

/-- A script is cut at the semicolons with an even number of quotes before them or none after them,
which are those that the pattern finds, and nothing else is lost; without blanks and blank pieces it
is split. A statement is not split further, and the statements with semicolons between them are
split into the same statements. -/
theorem split_by_semicolons (s : String) :
    split s = (((cutAt s.toList 0 (separators s.toList)).map Text.stripChars).filter (· ≠ [])).map
        String.ofList ∧
    (separatorPattern.findAll s.toList).filterMap (separatorOf? s.toList) = separators s.toList ∧
    [';'].intercalate (cutAt s.toList 0 (separators s.toList)) = s.toList ∧
    (∀ p ∈ split s, split p = [p]) ∧
    split (";".intercalate (split s)) = split s := by
  have hsplit : split s = (pieces s.toList).map String.ofList := rfl
  refine ⟨?_, findAll_separatorPattern s.toList, ?_, ?_, ?_⟩
  · rw [cutAt_separators]
    rfl
  · rw [cutAt_separators, intercalate_cut]
  · intro p hp
    rw [hsplit] at hp
    obtain ⟨q, hq, rfl⟩ := List.mem_map.1 hp
    rw [split_ofList, pieces_of_mem_pieces hq]
    rfl
  · have hjoin : ";".intercalate (split s) = String.ofList ([';'].intercalate (pieces s.toList)) := by
      have hback : String.toList ∘ String.ofList = id := funext fun l => String.toList_ofList
      rw [hsplit, ← String.toList_inj, String.toList_intercalate, String.toList_ofList,
        List.map_map, hback, List.map_id, String.toList_ofList]
    rw [hjoin, split_ofList, pieces_intercalate, hsplit]

/-- A literal with a semicolon and a doubled quote, blank pieces, and a quote that nothing closes. -/
example : split " a ';' b;; 'it''s;' ;\n don't; c " =
    ["a ';' b", "'it''s;'", "don't", "c"] := by decide

end Querywright.Script
