/-
  From which texts the parts of a data source name are read.

  * `Cut`: the scheme, the authority, the path and the options, as they are written. `parse_eq_ok`:
    which names are read, and as what.
  * `written`: a name of which it is known where its options and its fragment begin. `clean_written`
    and `cut_written`: so do those of what is read.
-/
import Querywright.Proofs.DataSource.Password
import Querywright.Proofs.Outcome

namespace Querywright

namespace Text

variable {c : Char} {s a b : List Char}

theorem cutAtFirst_of_not_mem (h : c ∉ s) : cutAtFirst c s = (s, none) := by
  rcases hcut : cutAtFirst c s with ⟨a, _ | b⟩
  · rw [(cutAtFirst_none hcut).1]
  · rw [cutAtFirst_some hcut] at h
    exact absurd (List.mem_append_right _ List.mem_cons_self) h

theorem not_mem_cutAtFirst (c : Char) (s : List Char) : c ∉ (cutAtFirst c s).1 := by
  induction s with
  | nil => exact List.not_mem_nil
  | cons x rest ih =>
    rw [cutAtFirst]
    split
    · exact List.not_mem_nil
    · rename_i hx
      exact List.not_mem_cons_of_ne_of_not_mem (Ne.symm hx) ih

theorem exists_cutAtFirst (h : c ∈ s) : ∃ a b, c ∉ a ∧ s = a ++ c :: b := by
  rcases hcut : cutAtFirst c s with ⟨a, _ | b⟩
  · exact absurd h (cutAtFirst_none hcut).2
  · have hfirst := not_mem_cutAtFirst c s
    rw [hcut] at hfirst
    exact ⟨a, b, hfirst, cutAtFirst_some hcut⟩

end Text

namespace DataSource

/-! ## Parts -/

/-- The parts of a name as they are written. -/
structure Cut where
  scheme : List Char
  authority : List Char
  path : List Char
  query : List Char

/-- Cut a text from which nothing is dropped any more. -/
def cut (s : List Char) : Cut :=
  let (scheme, rest) := cutScheme s
  let (authority, rest) := cutAuthority rest
  let (path, query) := Text.cutAtFirst '?' (Text.cutAtFirst '#' rest).1
  { scheme, authority, path, query := query.getD [] }

namespace Cut

/-- Host and port as they are written. -/
def server (c : Cut) : List Char × List Char := cutPort (cutUser c.authority).2.2

/-- What is read from the parts, once the port is. -/
def source (c : Cut) (port : Option Nat) : DataSource where
  scheme := String.ofList c.scheme
  username := (cutUser c.authority).1
  password := (cutUser c.authority).2.1
  host := readHost c.server.1
  port
  path := String.ofList (cutParameters c.scheme c.path)
  query := Form.decodePairs c.query

end Cut

/-- A name is cut before its parts are checked and read. -/
theorem parse_eq (dsn : String) : parse dsn = (do
    checkBrackets (cut (clean dsn.toList)).authority
    checkConfusables (cut (clean dsn.toList)).authority
    if (cut (clean dsn.toList)).scheme.isEmpty then
      throw (.address (.schemeMissing (Text.quote dsn)))
    let port ← readPort (cut (clean dsn.toList)).server.2
    return (cut (clean dsn.toList)).source port) := by
  rw [parse, cut]
  rcases cutScheme (clean dsn.toList) with ⟨scheme, rest⟩
  rcases cutAuthority rest with ⟨authority, behind⟩
  rcases Text.cutAtFirst '#' behind with ⟨front, fragment⟩
  rcases Text.cutAtFirst '?' front with ⟨path, query⟩
  rfl

/-- A name is read from its parts. -/
theorem parse_eq_ok {dsn : String} {d : DataSource} : parse dsn = .ok d ↔
    checkBrackets (cut (clean dsn.toList)).authority = .ok () ∧
      checkConfusables (cut (clean dsn.toList)).authority = .ok () ∧
      (cut (clean dsn.toList)).scheme ≠ [] ∧
      ∃ port, readPort (cut (clean dsn.toList)).server.2 = .ok port ∧
        (cut (clean dsn.toList)).source port = d := by
  rw [parse_eq]
  generalize cut (clean dsn.toList) = c
  simp only [bind_eq_ok]
  constructor
  · rintro ⟨_, hbrackets, _, hconfusables, hrest⟩
    split at hrest
    · cases hrest
    · rename_i hscheme
      obtain ⟨port, hport, hd⟩ := bind_eq_ok.1 hrest
      exact ⟨hbrackets, hconfusables, by simpa using hscheme, port, hport, pure_eq_ok.1 hd⟩
  · rintro ⟨hbrackets, hconfusables, hscheme, port, hport, rfl⟩
    refine ⟨(), hbrackets, (), hconfusables, ?_⟩
    rw [if_neg (by simpa using hscheme)]
    exact bind_eq_ok.2 ⟨port, hport, rfl⟩

/-! ## Options and fragments -/

/-- What follows the path: options, and a fragment. -/
def ending (query fragment : Option (List Char)) : List Char :=
  query.elim [] ('?' :: ·) ++ fragment.elim [] ('#' :: ·)

/-- A name up to its options, with options and a fragment. -/
def written (head : List Char) (query fragment : Option (List Char)) : List Char :=
  head ++ ending query fragment

variable {head : List Char} {query fragment : Option (List Char)}

/-- Options and a fragment begin with their marks. -/
theorem first_of_ending {c : Char} {rest : List Char} (h : ending query fragment = c :: rest) :
    c = '?' ∨ c = '#' := by
  rcases query with _ | q
  · rcases fragment with _ | f
    · cases h
    · cases h
      exact .inr rfl
  · cases h
    exact .inl rfl

theorem filter_kept_append (a b : List Char) : kept (a ++ b) = kept a ++ kept b :=
  List.filter_append a b

theorem kept_ending (query fragment : Option (List Char)) :
    kept (ending query fragment) = ending (query.map kept) (fragment.map kept) := by
  rw [ending, filter_kept_append]
  congr 1
  · cases query with
    | none => rfl
    | some q => exact kept_cons (by decide) q
  · cases fragment with
    | none => rfl
    | some f => exact kept_cons (by decide) f

/-- Blanks are dropped in front alone, where what follows begins with none. -/
theorem clean_append {s t : List Char} (h : t.dropWhile (fun c => c.toNat ≤ 32) = t) :
    clean (s ++ t) = clean s ++ kept t := by
  rw [clean, List.dropWhile_append]
  split
  · rename_i hblank
    rw [h, clean, List.isEmpty_iff.1 hblank]
    rfl
  · exact filter_kept_append _ _

/-- Nothing is dropped of the marks that begin options and fragments. -/
theorem clean_written : clean (written head query fragment)
    = written (clean head) (query.map kept) (fragment.map kept) := by
  rw [written, written, ← kept_ending]
  refine clean_append ?_
  rcases hfirst : ending query fragment with _ | ⟨c, rest⟩
  · rfl
  · refine List.dropWhile_cons_of_neg ?_
    rcases first_of_ending hfirst with rfl | rfl <;> decide

/-- A text that is a scheme. -/
def isScheme : List Char → Bool
  | [] => false
  | c :: more => c.isAlpha && (c :: more).all isSchemeChar

theorem isSchemeChar_of_isScheme {name : List Char} (h : isScheme name = true) :
    ∀ c ∈ name, isSchemeChar c = true := by
  cases name with
  | nil => cases h
  | cons c more => exact List.all_eq_true.1 (Bool.and_eq_true_iff.1 h).2

theorem cutScheme_of_isScheme {name : List Char} (h : isScheme name = true) (rest : List Char) :
    cutScheme (name ++ ':' :: rest) = (name.map Char.toLower, rest) := by
  have hcolon : ':' ∉ name := fun hmem =>
    absurd (isSchemeChar_of_isScheme h ':' hmem) (by decide)
  cases name with
  | nil => cases h
  | cons c more =>
    rw [cutScheme, Text.cutAtFirst_append rest hcolon]
    exact if_pos h

/-- A text has a scheme when one stands before its first colon. -/
theorem exists_scheme {s : List Char} (h : (cutScheme s).1 ≠ []) :
    ∃ name rest, isScheme name = true ∧ s = name ++ ':' :: rest := by
  rcases hcut : Text.cutAtFirst ':' s with ⟨_ | ⟨c, more⟩, _ | rest⟩
  · exact absurd (by rw [cutScheme, hcut]) h
  · exact absurd (by rw [cutScheme, hcut]) h
  · exact absurd (by rw [cutScheme, hcut]) h
  · refine ⟨c :: more, rest, ?_, Text.cutAtFirst_some hcut⟩
    rw [cutScheme, hcut] at h
    by_contra hinvalid
    exact h (congrArg Prod.fst (if_neg hinvalid))

/-- A name with options has a scheme only if it has one before them. -/
theorem exists_scheme_of_written (h : (cutScheme (written head query fragment)).1 ≠ []) :
    ∃ name rest, isScheme name = true ∧ head = name ++ ':' :: rest := by
  obtain ⟨name, rest, hname, hsplit⟩ := exists_scheme h
  rcases List.append_eq_append_iff.1 hsplit with ⟨more, hmore, hending⟩ | ⟨more, hmore, hending⟩
  · -- the scheme would go beyond a mark
    cases more with
    | nil => rcases first_of_ending hending with hmark | hmark <;> cases hmark
    | cons c more =>
      have hchar := isSchemeChar_of_isScheme hname c (by rw [hmore]; simp)
      rcases first_of_ending hending with rfl | rfl <;> cases hchar
  · cases more with
    | nil => rcases first_of_ending hending.symm with hmark | hmark <;> cases hmark
    | cons c more =>
      obtain ⟨rfl, -⟩ := List.cons.inj hending
      exact ⟨name, more, hname, hmore⟩

theorem takeWhile_append_of_nil {p : Char → Bool} {s t : List Char} (h : t.takeWhile p = []) :
    (s ++ t).takeWhile p = s.takeWhile p ∧ (s ++ t).dropWhile p = s.dropWhile p ++ t := by
  have hdrop : t.dropWhile p = t := by
    have hwhole := List.takeWhile_append_dropWhile (p := p) (l := t)
    rwa [h] at hwhole
  induction s with
  | nil => exact ⟨h, hdrop⟩
  | cons c s ih =>
    rw [List.cons_append, List.takeWhile_cons, List.takeWhile_cons, List.dropWhile_cons,
      List.dropWhile_cons]
    cases p c with
    | true => exact ⟨congrArg (c :: ·) ih.1, ih.2⟩
    | false => exact ⟨rfl, rfl⟩

theorem cutAuthority_of_ne {s : List Char} (h : ∀ rest, s ≠ '/' :: '/' :: rest) :
    cutAuthority s = ([], s) := by
  rw [cutAuthority.eq_def]
  split
  · exact absurd rfl (h _)
  · rfl

/-- The authority ends before the marks, and they are left. -/
theorem cutAuthority_written (head : List Char) (query fragment : Option (List Char)) :
    cutAuthority (written head query fragment)
      = ((cutAuthority head).1, written (cutAuthority head).2 query fragment) := by
  by_cases hslashes : ∃ rest, head = '/' :: '/' :: rest
  · obtain ⟨rest, rfl⟩ := hslashes
    have hstops : (ending query fragment).takeWhile
        (fun c => !(decide (c = '/') || decide (c = '?') || decide (c = '#'))) = [] := by
      rcases hfirst : ending query fragment with _ | ⟨c, rest⟩
      · rfl
      · refine List.takeWhile_cons_of_neg ?_
        rcases first_of_ending hfirst with rfl | rfl <;> decide
    obtain ⟨htake, hdrop⟩ := takeWhile_append_of_nil (s := rest) hstops
    exact Prod.ext htake hdrop
  · have hnone : ∀ rest, written head query fragment ≠ '/' :: '/' :: rest := by
      intro rest hsplit
      rcases List.append_eq_cons_iff.1 hsplit with ⟨-, hmark⟩ | ⟨more, rfl, hmore⟩
      · rcases first_of_ending hmark with hmark | hmark <;> cases hmark
      · rcases List.append_eq_cons_iff.1 hmore.symm with ⟨-, hmark⟩ | ⟨more, rfl, -⟩
        · rcases first_of_ending hmark with hmark | hmark <;> cases hmark
        · exact hslashes ⟨more, rfl⟩
    rw [cutAuthority_of_ne hnone, cutAuthority_of_ne fun rest h => hslashes ⟨rest, h⟩]

/-- An authority and what is left are parts of the text. -/
theorem mem_cutAuthority {s : List Char} {c : Char}
    (h : c ∈ (cutAuthority s).1 ∨ c ∈ (cutAuthority s).2) : c ∈ s := by
  rw [cutAuthority.eq_def] at h
  split at h
  · refine List.mem_cons_of_mem _ (List.mem_cons_of_mem _ ?_)
    rcases h with h | h
    · exact (List.takeWhile_sublist _).subset h
    · exact (List.dropWhile_sublist _).subset h
  · rcases h with h | h
    · cases h
    · exact h

/-- What is read of a name that is written with options and a fragment. -/
theorem cut_written {name rest : List Char} (hname : isScheme name = true) (hoptions : '?' ∉ rest)
    (hfragment : '#' ∉ rest) (hquery : ∀ q, query = some q → '#' ∉ q) :
    cut (written (name ++ ':' :: rest) query fragment)
      = ⟨name.map Char.toLower, (cutAuthority rest).1, (cutAuthority rest).2, query.getD []⟩ := by
  have hscheme : cutScheme (written (name ++ ':' :: rest) query fragment)
      = (name.map Char.toLower, written rest query fragment) := by
    rw [written, List.append_assoc]
    exact cutScheme_of_isScheme hname _
  have hpath {c : Char} (hc : c ∉ rest) : c ∉ (cutAuthority rest).2 :=
    fun h => hc (mem_cutAuthority (.inr h))
  have hfront : (Text.cutAtFirst '#' (written (cutAuthority rest).2 query fragment)).1
      = written (cutAuthority rest).2 query none := by
    have hclear : '#' ∉ written (cutAuthority rest).2 query none := by
      rw [written, ending, Option.elim_none, List.append_nil, List.mem_append, not_or]
      refine ⟨hpath hfragment, ?_⟩
      cases query with
      | none => exact List.not_mem_nil
      | some q => exact List.not_mem_cons_of_ne_of_not_mem (by decide) (hquery q rfl)
    rcases fragment with _ | f
    · rw [Text.cutAtFirst_of_not_mem hclear]
    · have hsplit : written (cutAuthority rest).2 query (some f)
          = written (cutAuthority rest).2 query none ++ '#' :: f := by
        simp [written, ending]
      rw [hsplit, Text.cutAtFirst_append _ hclear]
  have hquery : Text.cutAtFirst '?' (written (cutAuthority rest).2 query none)
      = ((cutAuthority rest).2, query) := by
    rcases query with _ | q
    · rw [written, ending]
      simpa using Text.cutAtFirst_of_not_mem (hpath hoptions)
    · rw [written, ending, Option.elim_none, List.append_nil]
      exact Text.cutAtFirst_append _ (hpath hoptions)
  rw [cut, hscheme]
  dsimp only
  rw [cutAuthority_written]
  dsimp only
  rw [hfront, hquery]

end DataSource
end Querywright
