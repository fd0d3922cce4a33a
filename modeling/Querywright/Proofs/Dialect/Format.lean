/-
  Texts with format markers can be read back.

  * `readFormat?` reads such a text from the left into characters, doubled percent signs and
    markers; it refuses a percent sign that belongs to neither.
  * `readFormat?_formatText`: the text of a translated statement is read as its lexemes, whatever
    percent signs touch a marker. `countMarkers_of_readFormat?`: the markers that are counted are
    the markers that are read.
  * `restore` writes texts in the place of the markers; `translate_restores` gets the query of a
    statement back from its translation.
-/
import Querywright.Adapter.Postgres
import Querywright.Proofs.Placeholder.Written

namespace Querywright.Placeholder

/-! ## Tokens as parts of the text -/

/-- The text of a placeholder. -/
def Token.textIn (s : String) (t : Token) : List Char :=
  (s.toList.drop t.start).take (t.stop - t.start)

/-- The tokens of lexemes behind a text are the placeholders of the whole text. -/
theorem slices_tokensFrom (front : List Char) (ls : List Lexeme) :
    (tokensFrom front.length ls).map (fun t => ((front ++ unlex ls).drop t.start).take (t.stop - t.start))
      = (marks ls).map ('?' :: ·) := by
  induction ls generalizing front with
  | nil => rfl
  | cons l rest ih =>
    cases l with
    | plain c =>
      have h := ih (front ++ [c])
      rw [List.length_append, List.length_singleton, List.append_assoc] at h
      exact h
    | mark digits =>
      have h := ih (front ++ '?' :: digits)
      have hlength : (front ++ '?' :: digits).length = front.length + 1 + digits.length := by
        simp only [List.length_append, List.length_cons]
        omega
      have hhead : ((front ++ unlex (.mark digits :: rest)).drop front.length).take
          (front.length + 1 + digits.length - front.length) = '?' :: digits := by
        have hstop : front.length + 1 + digits.length - front.length = ('?' :: digits).length := by
          rw [List.length_cons]
          omega
        rw [List.drop_left, unlex_cons, Lexeme.text, hstop, List.take_left]
      rw [hlength, List.append_assoc] at h
      rw [tokensFrom, List.map_cons, hhead]
      exact congrArg (('?' :: digits) :: ·) h

theorem textIn_scan {s : String} {tokens : List Token} (h : scan s = .ok tokens) :
    tokens.map (·.textIn s) = (marks (lex s.toList)).map ('?' :: ·) := by
  rw [scan, bind_eq_ok] at h
  obtain ⟨ns, hns, heq⟩ := h
  cases heq
  have h := slices_tokensFrom [] (lex s.toList)
  rw [List.nil_append, unlex_lex] at h
  exact h

end Querywright.Placeholder

namespace Querywright.Dialect

open Placeholder

/-! ## Reading a text with format markers -/

/-- A part of a text with format markers. -/
inductive FormatPart where
  | char (c : Char)
  | percent
  | marker
  deriving DecidableEq, Repr

/-- Read a text with format markers from the left. A percent sign belongs to a doubled one or to a
marker. -/
def readFormat? : List Char → Option (List FormatPart)
  | [] => some []
  | '%' :: '%' :: rest => (readFormat? rest).map (.percent :: ·)
  | '%' :: 's' :: rest => (readFormat? rest).map (.marker :: ·)
  | c :: rest => if c = '%' then none else (readFormat? rest).map (.char c :: ·)

/-- The text of the parts, with the texts given for the markers in their places. -/
def restore : List FormatPart → List (List Char) → List Char
  | [], _ => []
  | .char c :: rest, texts => c :: restore rest texts
  | .percent :: rest, texts => '%' :: restore rest texts
  | .marker :: rest, [] => restore rest []
  | .marker :: rest, text :: texts => text ++ restore rest texts

/-- What a lexeme is read as once it is format text. -/
def formatPart : Lexeme → FormatPart
  | .plain c => if c = '%' then .percent else .char c
  | .mark _ => .marker

theorem readFormat?_char {c : Char} (h : c ≠ '%') (rest : List Char) :
    readFormat? (c :: rest) = (readFormat? rest).map (.char c :: ·) := by
  rw [readFormat?, if_neg h]
  · intro _ hc
    exact absurd hc h
  · intro _ hc
    exact absurd hc h

theorem readFormat?_formatLexeme (l : Lexeme) (rest : List Char) :
    readFormat? (formatLexeme l ++ rest) = (readFormat? rest).map (formatPart l :: ·) := by
  cases l with
  | mark digits => rfl
  | plain c =>
    by_cases h : c = '%'
    · subst h
      rfl
    · have hlexeme : formatLexeme (.plain c) = [c] := if_neg h
      have hpart : formatPart (.plain c) = .char c := if_neg h
      rw [hlexeme, hpart, List.singleton_append, readFormat?_char h]

/-- Format text is read lexeme by lexeme: no part reaches into the next one. -/
theorem readFormat?_flatMap (ls : List Lexeme) :
    readFormat? (ls.flatMap formatLexeme) = some (ls.map formatPart) := by
  induction ls with
  | nil => rfl
  | cons l rest ih =>
    rw [List.flatMap_cons, readFormat?_formatLexeme, ih]
    rfl

theorem readFormat?_formatText (sql : String) :
    readFormat? (formatText sql).toList = some ((lex sql.toList).map formatPart) := by
  rw [formatText, String.toList_ofList]
  exact readFormat?_flatMap _

/-- Where every percent sign is read, the markers that are counted are those that are read. -/
theorem countMarkers_of_readFormat? {text : List Char} {parts : List FormatPart}
    (h : readFormat? text = some parts) : countMarkers text = parts.count .marker := by
  induction text using readFormat?.induct generalizing parts with
  | case1 =>
    cases h
    rfl
  | case2 rest ih =>
    obtain ⟨more, hmore, rfl⟩ := Option.map_eq_some_iff.1 h
    rw [countMarkers, ih hmore, List.count_cons_of_ne (by decide)]
  | case3 rest ih =>
    obtain ⟨more, hmore, rfl⟩ := Option.map_eq_some_iff.1 h
    rw [countMarkers, ih hmore, List.count_cons_self]
  | case4 rest h₁ h₂ =>
    simp [readFormat?] at h
  | case5 c rest h₁ h₂ hc ih =>
    rw [readFormat?_char hc] at h
    obtain ⟨more, hmore, rfl⟩ := Option.map_eq_some_iff.1 h
    rw [countMarkers, ih hmore, List.count_cons_of_ne (by simp)]
    · exact h₁
    · exact h₂

theorem count_marker (ls : List Lexeme) :
    (ls.map formatPart).count .marker = (marks ls).length := by
  induction ls with
  | nil => rfl
  | cons l rest ih =>
    rw [List.map_cons]
    cases l with
    | mark digits =>
      rw [formatPart, List.count_cons_self, ih]
      rfl
    | plain c =>
      have hne : formatPart (.plain c) ≠ .marker := by
        rw [formatPart]
        split <;> simp
      rw [List.count_cons_of_ne hne, ih]
      rfl

/-- The markers of a translated text are as many as the placeholders of the query. -/
theorem countMarkers_formatText (sql : String) :
    countMarkers (formatText sql).toList = (marks (lex sql.toList)).length := by
  rw [countMarkers_of_readFormat? (readFormat?_formatText sql), count_marker]

theorem restore_formatPart (ls : List Lexeme) :
    restore (ls.map formatPart) ((marks ls).map ('?' :: ·)) = unlex ls := by
  induction ls with
  | nil => rfl
  | cons l rest ih =>
    rw [List.map_cons, unlex_cons, ← ih]
    cases l with
    | mark digits => rfl
    | plain c =>
      by_cases h : c = '%'
      · subst h
        rfl
      · rw [show formatPart (.plain c) = .char c from if_neg h]
        rfl

/-! ## Translation -/

/-- What a translation is made of. -/
theorem toFormat_eq_ok {sql : String} {arguments : List Value} {p : Piece} :
    toFormat sql arguments = .ok p ↔ ∃ is values, resolve sql 0 = .ok is ∧
      highest 0 is ≤ arguments.length ∧ is.mapM (argumentAt arguments) = .ok values ∧
      p = ⟨formatText sql, values⟩ := by
  rw [toFormat, bind_eq_ok]
  constructor
  · rintro ⟨is, his, h⟩
    by_cases hlarge : highest 0 is > arguments.length
    · rw [if_pos hlarge] at h
      cases h
    · rw [if_neg hlarge] at h
      simp only [bind_eq_ok, pure_eq_ok] at h
      obtain ⟨values, hvalues, rfl⟩ := h
      exact ⟨is, values, his, Int.not_lt.1 hlarge, hvalues, rfl⟩
  · rintro ⟨is, values, his, hle, hvalues, rfl⟩
    refine ⟨is, his, ?_⟩
    rw [if_neg (Int.not_lt.2 hle)]
    dsimp only
    rw [hvalues]
    rfl

/-- A translated statement: the text of its query with format markers. -/
theorem translate_eq_ok {s : Statement} {prepared : Prepared}
    (h : Dialect.postgres.translate s = .ok prepared) :
    ∃ query values, s.query.asText? = some query ∧
      toFormat query s.arguments = .ok ⟨formatText query, values⟩ ∧
      prepared = ⟨.text (formatText query), values⟩ := by
  unfold translate at h
  dsimp only at h
  split at h
  · rename_i query hquery
    obtain ⟨p, hp, rfl⟩ := map_eq_ok.1 h
    obtain ⟨_, values, _, _, _, rfl⟩ := toFormat_eq_ok.1 hp
    exact ⟨query, values, hquery, hp, rfl⟩
  · cases h

/-- As many values are sent as there are placeholders. -/
theorem length_toFormat {sql : String} {arguments : List Value} {p : Piece}
    (h : toFormat sql arguments = .ok p) :
    p.arguments.length = (marks (lex sql.toList)).length := by
  obtain ⟨is, values, his, _, hvalues, rfl⟩ := toFormat_eq_ok.1 h
  obtain ⟨ns, hns, rfl⟩ := resolve_eq_ok.1 his
  obtain ⟨_, rfl⟩ := numbers_eq_ok.1 hns
  have hlength : values.length = (assign 0 ((marks (lex sql.toList)).map number?)).length :=
    length_of_mapM_eq_ok hvalues
  rw [length_assign, List.length_map] at hlength
  exact hlength

/-- Translation loses nothing: every percent sign of the translated text belongs to a doubled one
or to a marker, there is one marker for each value and each placeholder, and with single percent
signs and the placeholders put back the text is the query. -/
theorem translate_restores {s : Statement} {prepared : Prepared}
    (h : Dialect.postgres.translate s = .ok prepared) :
    ∃ query sql tokens parts, s.query.asText? = some query ∧ prepared.sql = .text sql ∧
      scan query = .ok tokens ∧ readFormat? sql.toList = some parts ∧
      Adapter.Postgres.markersOf prepared.sql = .ok prepared.arguments.length ∧
      prepared.arguments.length = tokens.length ∧
      restore parts (tokens.map (·.textIn query)) = query.toList := by
  obtain ⟨query, values, hquery, hformat, rfl⟩ := translate_eq_ok h
  obtain ⟨is, _, his, _⟩ := toFormat_eq_ok.1 hformat
  obtain ⟨ns, hns, _⟩ := resolve_eq_ok.1 his
  have hscan : scan query = .ok (tokensFrom 0 (lex query.toList)) := by
    rw [scan, hns]
    rfl
  have hslices := textIn_scan hscan
  have hvalues : values.length = (marks (lex query.toList)).length := length_toFormat hformat
  have htokens : values.length = (tokensFrom 0 (lex query.toList)).length := by
    have hlength := congrArg List.length hslices
    rw [List.length_map, List.length_map] at hlength
    rw [hvalues, hlength]
  refine ⟨query, formatText query, _, _, hquery, rfl, hscan, readFormat?_formatText query, ?_,
    htokens, ?_⟩
  · show Except.ok (countMarkers (formatText query).toList) = Except.ok values.length
    rw [countMarkers_formatText, hvalues]
  · rw [hslices, restore_formatPart, unlex_lex]

/-- A statement with runs of percent signs at its placeholders. -/
def percentRuns : Statement :=
  ⟨.text "SELECT '100%?' WHERE a LIKE %?2%s AND b = ?%%? AND c = '%s'",
    [.int 1, .int 2, .int 3, .int 4], .all⟩

theorem translate_restores_percentRuns :
    ∃ prepared sql parts, Dialect.postgres.translate percentRuns = .ok prepared ∧
      prepared.sql = .text sql ∧ readFormat? sql.toList = some parts ∧
      Adapter.Postgres.markersOf prepared.sql = .ok 3 ∧
      restore parts [['?', '2'], ['?'], ['?']]
        = "SELECT '100%?' WHERE a LIKE %?2%s AND b = ?%%? AND c = '%s'".toList := by
  have htranslated : (Dialect.postgres.translate percentRuns).toOption.map (·.arguments.length)
      = some 3 := by
    decide
  cases hp : Dialect.postgres.translate percentRuns with
  | error e =>
    rw [hp] at htranslated
    cases htranslated
  | ok prepared =>
    rw [hp] at htranslated
    have hlength : prepared.arguments.length = 3 := Option.some.inj htranslated
    obtain ⟨query, sql, tokens, parts, hquery, hsql, hscan, hparts, hmarkers, _, hrestore⟩ :=
      translate_restores hp
    cases hquery
    rw [textIn_scan hscan] at hrestore
    rw [hlength] at hmarkers
    exact ⟨prepared, sql, parts, rfl, hsql, hparts, hmarkers, hrestore⟩

end Querywright.Dialect
