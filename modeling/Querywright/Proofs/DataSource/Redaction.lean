/-
  A data source name without its secrets is a name with everything else in it.

  * `cutParameters_again`: a path without parameters has none.
  * `Cut.plain_cut`: what the parts of a name in ASCII are written with.
  * `cut_redacted`: from which texts the redacted name is read.
  * `redacting_keeps_the_rest`: it is read as the same name with masks for the secrets, and is
    redacted to itself.
-/
import Mathlib.Data.List.TakeWhile
import Querywright.Proofs.DataSource.Authority
import Querywright.Proofs.DataSource.Secrets

namespace Querywright.DataSource

variable {s scheme path : List Char}

/-! ## Paths -/

/-- The path is empty or begins with a slash. -/
def Rooted (path : List Char) : Prop := ∀ c rest, path = c :: rest → c = '/'

theorem rooted_nil : Rooted [] := by
  rintro c rest ⟨⟩

theorem rooted_slash (rest : List Char) : Rooted ('/' :: rest) := by
  rintro c more ⟨⟩
  rfl

/-- A path that is cut short stays rooted. -/
theorem Rooted.of_append {before after after' : List Char} (h : Rooted (before ++ '/' :: after)) :
    Rooted (before ++ '/' :: after') := by
  cases before with
  | nil => exact rooted_slash after'
  | cons c before =>
    rw [h c (before ++ '/' :: after) rfl]
    exact rooted_slash _

theorem Rooted.cutAtFirst {mark : Char} (hmark : mark ≠ '/') (h : Rooted path) :
    Rooted (Text.cutAtFirst mark path).1 := by
  cases path with
  | nil => exact h
  | cons c path =>
    have hc := h c path rfl
    subst hc
    rw [Text.cutAtFirst, if_neg hmark.symm]
    exact rooted_slash _

/-- A rooted path is not empty where it has no slash. -/
theorem Rooted.eq_nil (h : Rooted path) (hslash : '/' ∉ path) : path = [] := by
  cases path with
  | nil => rfl
  | cons c path => exact absurd (h c path rfl ▸ List.mem_cons_self) hslash

/-- What a path without its parameters is. -/
theorem cutParameters_cases (scheme : List Char) (h : Rooted path) :
    cutParameters scheme path = path ∨
      ∃ before last, path = before ++ '/' :: last ∧ '/' ∉ last ∧
        cutParameters scheme path = before ++ '/' :: (Text.cutAtFirst ';' last).1 := by
  rw [cutParameters]
  split
  · rcases Text.cutAtLast_cases '/' path with ⟨hnone, hcut⟩ | ⟨before, last, hpath, hlast, hcut⟩
    · rw [hcut, h.eq_nil hnone]
      exact .inl rfl
    · rw [hcut]
      exact .inr ⟨before, last, hpath, hlast, rfl⟩
  · exact .inl rfl

theorem rooted_cutParameters (h : Rooted path) : Rooted (cutParameters scheme path) := by
  rcases cutParameters_cases scheme h with hsame | ⟨before, last, rfl, -, hcut⟩
  · rwa [hsame]
  · rw [hcut]
    exact h.of_append

theorem mem_of_mem_cutParameters (h : Rooted path) {c : Char}
    (hc : c ∈ cutParameters scheme path) : c ∈ path := by
  rcases cutParameters_cases scheme h with hsame | ⟨before, last, rfl, -, hcut⟩
  · rwa [hsame] at hc
  · rw [hcut, List.mem_append, List.mem_cons] at hc
    rw [List.mem_append, List.mem_cons]
    exact hc.imp_right (Or.imp_right Text.mem_of_mem_cutAtFirst)

/-- A path without parameters has none to cut. -/
theorem cutParameters_again (h : Rooted path) :
    cutParameters scheme (cutParameters scheme path) = cutParameters scheme path := by
  rcases cutParameters_cases scheme h with hsame | ⟨before, last, rfl, hlast, hcut⟩
  · rw [hsame, hsame]
  · have hclear : '/' ∉ (Text.cutAtFirst ';' last).1 := fun hc =>
      hlast (Text.mem_of_mem_cutAtFirst hc)
    rw [hcut, cutParameters, Text.cutAtLast_mark before hclear]
    dsimp only
    rw [Text.cutAtFirst_of_not_mem (Text.not_mem_cutAtFirst ';' last)]
    exact ite_self _

/-! ## The parts of a name in ASCII -/

/-- A character that a name in ASCII is written with once it is clean. -/
def isPlain (c : Char) : Bool := decide (c.toNat < 128) && !(['\t', '\r', '\n'].contains c)

/-- The parts of a name in ASCII, whose authority has no brackets. -/
structure Cut.Plain (c : Cut) : Prop where
  scheme : ∃ name, isScheme name = true ∧ c.scheme = name.map Char.toLower
  authority : ∀ x ∈ c.authority, isAuthorityChar x = true
  rooted : Rooted c.path
  path : ∀ x ∈ c.path, isPlain x = true ∧ x ≠ '?' ∧ x ≠ '#'

theorem isPlain_of_clean (h : Text.isAscii s = true) : ∀ c ∈ clean s, isPlain c = true := by
  intro c hc
  have hascii := List.all_eq_true.1 h c (mem_of_mem_clean hc)
  have hkept := (List.mem_filter.1 hc).2
  simp only [decide_eq_true_eq] at hascii hkept
  simp [isPlain, hascii, hkept]

/-- What is cut from a text with two slashes behind its scheme. -/
theorem cut_slashes {name : List Char} (hname : isScheme name = true) (rest : List Char) :
    cut (name ++ ':' :: '/' :: '/' :: rest)
      = ⟨name.map Char.toLower, rest.takeWhile goesOn,
        (Text.cutAtFirst '?' (Text.cutAtFirst '#' (rest.dropWhile goesOn)).1).1,
        (Text.cutAtFirst '?' (Text.cutAtFirst '#' (rest.dropWhile goesOn)).1).2.getD []⟩ := by
  rw [cut, cutScheme_of_isScheme hname]
  rfl

theorem rooted_behind (rest : List Char) :
    Rooted (Text.cutAtFirst '?' (Text.cutAtFirst '#' (rest.dropWhile goesOn)).1).1 := by
  rcases hbehind : rest.dropWhile goesOn with _ | ⟨c, more⟩
  · exact rooted_nil
  · have hstops : goesOn c = false := by
      have hfirst := List.head?_dropWhile_not goesOn rest
      rw [hbehind] at hfirst
      exact hfirst
    by_cases hslash : c = '/'
    · subst hslash
      exact ((rooted_slash more).cutAtFirst (by decide)).cutAtFirst (by decide)
    by_cases hhash : c = '#'
    · rw [Text.cutAtFirst, if_pos hhash]
      exact rooted_nil
    · have hquestion : c = '?' := by simpa [goesOn, hslash, hhash] using hstops
      rw [Text.cutAtFirst, if_neg hhash, Text.cutAtFirst, if_pos hquestion]
      exact rooted_nil

/-- What is cut from a clean text in ASCII. -/
theorem Cut.plain_cut (h : ∀ c ∈ s, isPlain c = true) (hscheme : (cutScheme s).1 ≠ [])
    (hauthority : (cut s).authority ≠ []) (hopening : '[' ∉ (cut s).authority)
    (hclosing : ']' ∉ (cut s).authority) : (cut s).Plain := by
  obtain ⟨name, rest, hname, rfl⟩ := exists_scheme hscheme
  by_cases hslashes : ∃ more, rest = '/' :: '/' :: more
  · obtain ⟨more, rfl⟩ := hslashes
    rw [cut_slashes hname] at hauthority hopening hclosing ⊢
    have hplain {x : Char} (hx : x ∈ more) : isPlain x = true := h x (by simp [hx])
    refine ⟨⟨name, hname, rfl⟩, fun x hx => ?_, rooted_behind more, fun x hx => ?_⟩
    · have hgoesOn := List.mem_takeWhile_imp hx
      have hchar := hplain ((List.takeWhile_sublist _).subset hx)
      have hopening' : x ≠ '[' := fun heq => hopening (heq ▸ hx)
      have hclosing' : x ≠ ']' := fun heq => hclosing (heq ▸ hx)
      simp only [isPlain, goesOn, isAuthorityChar, Bool.and_eq_true, Bool.not_eq_true',
        Bool.or_eq_false_iff, decide_eq_true_eq, decide_eq_false_iff_not, List.contains_eq_mem,
        List.mem_cons, List.not_mem_nil, or_false, not_or] at hgoesOn hchar ⊢
      exact ⟨hchar.1, hgoesOn.1.1, hgoesOn.1.2, hgoesOn.2, hopening', hclosing', hchar.2⟩
    · have hfront := Text.mem_of_mem_cutAtFirst hx
      have hbehind := Text.mem_of_mem_cutAtFirst hfront
      refine ⟨hplain ((List.dropWhile_sublist _).subset hbehind), ?_, ?_⟩
      · rintro rfl
        exact Text.not_mem_cutAtFirst '?' _ hx
      · rintro rfl
        exact Text.not_mem_cutAtFirst '#' _ hfront
  · refine absurd ?_ hauthority
    rw [cut, cutScheme_of_isScheme hname]
    dsimp only
    rw [cutAuthority_of_ne fun more hmore => hslashes ⟨more, hmore⟩]

/-! ## The redacted name -/

/-- The options that are shown, if there are any. -/
def shownOptions (d : DataSource) : Option (List Char) :=
  if d.query.isEmpty then none else some (Form.encodePairs d.redactedQuery).toList

/-- The text of the redacted name. -/
theorem toList_redacted (d : DataSource) : d.redacted.toList
    = written (d.scheme.toList ++ ':' :: '/' :: '/' :: (d.redactedAuthority.toList
        ++ d.path.toList)) d.shownOptions none := by
  rw [redacted, shownOptions]
  split <;> simp [written, ending]

theorem not_mem_shownOptions (d : DataSource) {mark : Char} (h : Form.isFormChar mark = false)
    (heq : mark ≠ '=') (hamp : mark ≠ '&') {q : List Char} (hq : d.shownOptions = some q) :
    mark ∉ q := by
  rw [shownOptions] at hq
  split at hq
  · cases hq
  · cases hq
    exact Form.not_mem_encodePairs h heq hamp _

/-- Nothing is dropped of options that are shown. -/
theorem kept_shownOptions (d : DataSource) : d.shownOptions.map kept = d.shownOptions := by
  rcases hq : d.shownOptions with _ | q
  · rfl
  · refine congrArg some (List.filter_eq_self.2 fun x hx => ?_)
    rw [decide_eq_true_eq]
    refine ⟨?_, ?_, ?_⟩ <;> rintro rfl <;>
      exact d.not_mem_shownOptions (by decide) (by decide) (by decide) hq hx

/-- Options that are shown are read back with the masks. -/
theorem decodePairs_shownOptions {d : DataSource} (hnames : (d.query.map (·.1)).Nodup)
    (hvalues : ∀ p ∈ d.query, p.2 ≠ "") :
    Form.decodePairs (d.shownOptions.getD []) = d.redactedQuery := by
  rw [shownOptions]
  split
  · rename_i hnone
    rw [redactedQuery, List.isEmpty_iff.1 hnone]
    rfl
  · rw [redactedQuery_eq]
    refine Form.decodePairs_encodePairs ?_ fun p hp => ?_
    · rwa [List.map_map]
    · obtain ⟨q, hq, rfl⟩ := List.mem_map.1 hp
      rw [maskedOption]
      dsimp only
      split
      · decide
      · exact hvalues q hq

/-- Lower case keeps a scheme a scheme. -/
theorem toLower_scheme {c : Char} (h : isPlain c = true) :
    c.toLower.toLower = c.toLower ∧ (c.isAlpha = true → c.toLower.isAlpha = true) ∧
      (isSchemeChar c = true → isSchemeChar c.toLower = true) := by
  have hascii : c.toNat < 128 := of_decide_eq_true (Bool.and_eq_true_iff.1 h).1
  refine forall_ascii (P := fun c => c.toLower.toLower = c.toLower ∧
    (c.isAlpha = true → c.toLower.isAlpha = true) ∧
      (isSchemeChar c = true → isSchemeChar c.toLower = true)) ?_ hascii
  decide

theorem isPlain_of_isSchemeChar {c : Char} (h : isSchemeChar c = true) :
    isPlain c = true ∧ 32 < c.toNat ∧ c ≠ '#' := by
  have hascii : c.toNat < 128 := by
    simp only [isSchemeChar, Bool.or_eq_true, decide_eq_true_eq] at h
    rcases h with ((halphanum | rfl) | rfl) | rfl
    · exact ascii_of_isAlphanum halphanum
    all_goals decide
  revert h
  refine forall_ascii (P := fun c => isSchemeChar c = true →
    isPlain c = true ∧ 32 < c.toNat ∧ c ≠ '#') ?_ hascii
  decide

theorem isScheme_toLower {name : List Char} (h : isScheme name = true) :
    isScheme (name.map Char.toLower) = true ∧
      (name.map Char.toLower).map Char.toLower = name.map Char.toLower := by
  have hchars := isSchemeChar_of_isScheme h
  have hlower {c : Char} (hc : c ∈ name) := toLower_scheme (isPlain_of_isSchemeChar (hchars c hc)).1
  refine ⟨?_, ?_⟩
  · cases name with
    | nil => cases h
    | cons c more =>
      have halpha := (Bool.and_eq_true_iff.1 h).1
      rw [List.map_cons, isScheme, ← List.map_cons, Bool.and_eq_true, List.all_map,
        List.all_eq_true]
      exact ⟨(hlower List.mem_cons_self).2.1 halpha, fun d hd => (hlower hd).2.2 (hchars d hd)⟩
  · rw [List.map_map]
    exact List.map_congr_left fun c hc => (hlower hc).1

/-- A text without dropped characters that begins with none is clean. -/
theorem clean_of_plain {c : Char} (hc : 32 < c.toNat) (h : ∀ x ∈ s, isPlain x = true) :
    clean (c :: s) = c :: s := by
  rw [clean_cons hc, kept, List.filter_eq_self.2]
  intro x hx
  have hplain := h x hx
  simp only [isPlain, Bool.and_eq_true, Bool.not_eq_true', List.contains_eq_mem, List.mem_cons,
    List.not_mem_nil, or_false, decide_eq_false_iff_not, not_or] at hplain
  exact decide_eq_true hplain.2

/-- A name of plain characters up to its options is clean. -/
theorem clean_name {authority : List Char} (hscheme : isScheme scheme = true)
    (hauthority : ∀ x ∈ authority, isPlain x = true) (hpath : ∀ x ∈ path, isPlain x = true) :
    clean (scheme ++ ':' :: '/' :: '/' :: (authority ++ path))
      = scheme ++ ':' :: '/' :: '/' :: (authority ++ path) := by
  have hletters := isSchemeChar_of_isScheme hscheme
  cases scheme with
  | nil => cases hscheme
  | cons first more =>
    obtain ⟨hfirst, hmore⟩ := List.forall_mem_cons.1 hletters
    have hmarks : isPlain ':' = true ∧ isPlain '/' = true := by decide
    refine clean_of_plain (isPlain_of_isSchemeChar hfirst).2.1 (List.forall_mem_append.2 ⟨?_, ?_⟩)
    · exact fun x hx => (isPlain_of_isSchemeChar (hmore x hx)).1
    · exact List.forall_mem_cons.2 ⟨hmarks.1, List.forall_mem_cons.2 ⟨hmarks.2,
        List.forall_mem_cons.2 ⟨hmarks.2, List.forall_mem_append.2 ⟨hauthority, hpath⟩⟩⟩⟩

/-- The data source without its secrets, with masks in their places. -/
def withoutSecrets (d : DataSource) : DataSource where
  scheme := d.scheme
  username := d.username
  password := (shown d.password).map fun _ => Secret.mask
  host := d.host
  port := d.port
  path := d.path
  query := d.query.map fun (name, value) =>
    (name, if Secret.isSensitiveKey name then Secret.mask else value)

/-- What is masked shows the same text. -/
theorem redacted_withoutSecrets (d : DataSource) : d.withoutSecrets.redacted = d.redacted := by
  refine redacted_congr rfl rfl ?_ rfl rfl rfl ?_
  · rw [withoutSecrets]
    rcases shown d.password with _ | secret
    · rfl
    · rfl
  · rw [redactedQuery_eq, redactedQuery_eq]
    change (d.query.map maskedOption).map maskedOption = _
    rw [List.map_map]
    refine List.map_congr_left fun p _ => ?_
    rw [Function.comp_apply, maskedOption, maskedOption]
    dsimp only
    split <;> rfl

theorem isPlain_of_isAuthorityChar {c : Char} (h : isAuthorityChar c = true) :
    isPlain c = true ∧ goesOn c = true := by
  simp only [isPlain, goesOn, isAuthorityChar, Bool.and_eq_true, Bool.not_eq_true',
    Bool.or_eq_false_iff, decide_eq_true_eq, decide_eq_false_iff_not, List.contains_eq_mem,
    List.mem_cons, List.not_mem_nil, or_false, not_or] at h ⊢
  obtain ⟨hascii, hslash, hquestion, hhash, -, -, hdropped⟩ := h
  exact ⟨⟨hascii, hdropped⟩, ⟨hslash, hquestion⟩, hhash⟩

/-- A rooted path begins where the authority ends. -/
theorem cutAuthority_slashes {authority : List Char} (h : ∀ x ∈ authority, goesOn x = true)
    (hpath : Rooted path) :
    cutAuthority ('/' :: '/' :: (authority ++ path)) = (authority, path) := by
  have hstops : path.takeWhile goesOn = [] ∧ path.dropWhile goesOn = path := by
    cases path with
    | nil => exact ⟨rfl, rfl⟩
    | cons c path =>
      have hc := hpath c path rfl
      subst hc
      exact ⟨rfl, rfl⟩
  refine Prod.ext ?_ ?_
  · change (authority ++ path).takeWhile goesOn = authority
    rw [List.takeWhile_append_of_pos h, hstops.1, List.append_nil]
  · change (authority ++ path).dropWhile goesOn = path
    rw [List.dropWhile_append_of_pos h, hstops.2]

theorem checks_of_plain {authority : List Char} (h : ∀ x ∈ authority, isAuthorityChar x = true) :
    checkBrackets authority = .ok () ∧ checkConfusables authority = .ok () := by
  have hclear {bracket : Char} (hbracket : isAuthorityChar bracket = false) :
      authority.contains bracket = false := by
    rw [List.contains_eq_mem, decide_eq_false_iff_not]
    intro hmem
    rw [h bracket hmem] at hbracket
    cases hbracket
  have hnone : (authority.any fun c => confusables.contains c.toNat) = false := by
    rw [List.any_eq_false]
    intro c hc
    have hlarge : ∀ n ∈ confusables, 128 ≤ n := by decide
    have hascii := ascii_of_isAuthorityChar (h c hc)
    rw [List.contains_eq_mem, decide_eq_true_eq]
    exact fun hmem => absurd (hlarge _ hmem) (Nat.not_le.2 hascii)
  rw [checkBrackets, checkConfusables, hclear (by decide), hclear (by decide), hnone]
  exact ⟨rfl, rfl⟩

/-- From which texts the redacted name is read. -/
theorem cut_redacted {c : Cut} (h : c.Plain) {port : Option Nat}
    (hchars : ∀ x ∈ (c.source port).redactedAuthority.toList, isAuthorityChar x = true) :
    cut (clean (c.source port).redacted.toList)
      = ⟨c.scheme, (c.source port).redactedAuthority.toList, cutParameters c.scheme c.path,
        (c.source port).shownOptions.getD []⟩ := by
  have htext := toList_redacted (c.source port)
  have hscheme : (c.source port).scheme.toList = c.scheme := String.toList_ofList
  have hpath : (c.source port).path.toList = cutParameters c.scheme c.path := String.toList_ofList
  rw [hscheme, hpath] at htext
  generalize (c.source port).redactedAuthority.toList = authority at hchars htext ⊢
  obtain ⟨name, hname, hlowered⟩ := h.scheme
  obtain ⟨hlower, hagain⟩ := isScheme_toLower hname
  rw [← hlowered] at hlower hagain
  have hfront : ∀ x ∈ authority, isPlain x = true ∧ goesOn x = true :=
    fun x hx => isPlain_of_isAuthorityChar (hchars x hx)
  have hback : ∀ x ∈ cutParameters c.scheme c.path, isPlain x = true ∧ x ≠ '?' ∧ x ≠ '#' :=
    fun x hx => h.path x (mem_of_mem_cutParameters h.rooted hx)
  have hclear {mark : Char} (hmark : goesOn mark = false) (hne : mark ≠ '/')
      (hmarks : mark ∉ cutParameters c.scheme c.path) :
      mark ∉ '/' :: '/' :: (authority ++ cutParameters c.scheme c.path) := by
    have hauthority : mark ∉ authority := fun hx => by
      rw [(hfront mark hx).2] at hmark
      cases hmark
    simp [hne, hauthority, hmarks]
  have hclean := clean_name hlower (fun x hx => (hfront x hx).1) fun x hx => (hback x hx).1
  rw [htext, clean_written, hclean, kept_shownOptions,
    cut_written hlower (hclear (by decide) (by decide) fun hx => (hback _ hx).2.1 rfl)
      (hclear (by decide) (by decide) fun hx => (hback _ hx).2.2 rfl)
      fun q hq => not_mem_shownOptions _ (by decide) (by decide) (by decide) hq,
    cutAuthority_slashes (fun x hx => (hfront x hx).2) (rooted_cutParameters h.rooted), hagain]

theorem parse_redacted {c : Cut} (h : c.Plain) (hscheme : c.scheme ≠ []) {port : Option Nat}
    (hread : readPort c.server.2 = .ok port) (hport : port ≠ some 0)
    (husername : (c.source port).username ≠ some "") :
    parse (c.source port).redacted = .ok (c.source port).withoutSecrets := by
  obtain ⟨hchars, huser, hhost, hreadPort⟩ := authority_read_back h.authority hread hport husername
  have hoptions := decodePairs_shownOptions (d := c.source port) (Form.nodup_decodePairs _)
    fun p hp => Form.ne_empty_of_mem_decodePairs hp
  obtain ⟨hbrackets, hconfusables⟩ := checks_of_plain hchars
  refine parse_eq_ok.2 ?_
  rw [cut_redacted h hchars]
  refine ⟨hbrackets, hconfusables, hscheme, port, ?_, ?_⟩
  · rw [Cut.server, huser]
    exact hreadPort
  · rw [Cut.source, Cut.server, huser, hoptions, hhost, cutParameters_again h.rooted]
    rfl

/-- Of a name in ASCII, with an authority without brackets, redaction keeps everything that is no
secret: the redacted name is read as the same parts with masks for the password and for the values
of sensitive names, and redacting it again changes nothing. -/
theorem redacting_keeps_the_rest {dsn : String} {d : DataSource}
    (hascii : Text.isAscii dsn.toList = true)
    (hauthority : (cut (clean dsn.toList)).authority ≠ [])
    (hopening : '[' ∉ (cut (clean dsn.toList)).authority)
    (hclosing : ']' ∉ (cut (clean dsn.toList)).authority) (h : parse dsn = .ok d)
    (hport : d.port ≠ some 0) (husername : d.username ≠ some "") :
    parse d.redacted = .ok d.withoutSecrets ∧ d.withoutSecrets.redacted = d.redacted := by
  obtain ⟨-, -, hscheme, port, hread, rfl⟩ := parse_eq_ok.1 h
  have hplain := Cut.plain_cut (isPlain_of_clean hascii) hscheme hauthority hopening hclosing
  exact ⟨parse_redacted hplain hscheme hread hport husername, redacted_withoutSecrets _⟩

theorem redacting_keeps_the_rest_of_ada :
    ∃ d, parse "PostgreSQL://ada@corp:hunter2@DB.Example:05432/app?api%2Dkey=1f8a&note=a+b%2fc"
        = .ok d ∧
      d.redacted = "postgresql://ada@corp:***@db.example:5432/app?api-key=***&note=a+b%2Fc" ∧
      parse d.redacted = .ok d.withoutSecrets ∧ d.withoutSecrets.redacted = d.redacted := by
  let d : DataSource :=
    { scheme := "postgresql", username := some "ada@corp", password := some "hunter2",
      host := some "db.example", port := some 5432, path := "/app",
      query := [("api-key", "1f8a"), ("note", "a b/c")] }
  have hd : parse "PostgreSQL://ada@corp:hunter2@DB.Example:05432/app?api%2Dkey=1f8a&note=a+b%2fc"
      = .ok d := rfl
  have hredacted :
      d.redacted = "postgresql://ada@corp:***@db.example:5432/app?api-key=***&note=a+b%2Fc" := by
    decide
  exact ⟨d, hd, hredacted, redacting_keeps_the_rest (by decide) (by decide)
    (by decide) (by decide) hd (by decide) (by decide)⟩

end Querywright.DataSource
