/-
  Texts of clauses, from the texts that a descriptor gives.

  A class of texts that holds all wording, and is closed under joining where no digits come behind a
  question mark (`Joinable`), holds every clause whose entries are in it. The classes used are the
  plain, the balanced and the bare texts, so each clause needs one lemma. Clauses that may be absent
  are `Led`: their text is empty or begins with a blank, so they may follow a placeholder.
-/
import Querywright.Proofs.Placeholder.Numbering
import Querywright.Select.Compile

namespace Querywright

open Placeholder

/-! ## Classes of texts -/

/-- Words and signs: no quote and no question mark. -/
def Wording (s : String) : Prop := quote ∉ s.toList ∧ '?' ∉ s.toList

instance (s : String) : Decidable (Wording s) := inferInstanceAs (Decidable (_ ∧ _))

/-- The last character is no question mark, so digits may follow. -/
def Ended (s : String) : Prop := s.toList.getLast? ≠ some '?'

instance (s : String) : Decidable (Led s) := Option.decidableForallMem s.toList.head?

/-- A class of texts that holds all wording and is closed under joining. -/
structure Joinable (P : String → Prop) : Prop where
  wording : ∀ {s}, Wording s → P s
  append : ∀ {a b}, P a → P b → Ended a ∨ Led b → P (a ++ b)

theorem Wording.plain {s : String} (h : Wording s) : Plain s := plain_of_not_mem h.1 h.2

theorem Wording.ended {s : String} (h : Wording s) : Ended s :=
  fun hlast => h.2 (List.mem_of_getLast? hlast)

theorem Ended.append {a b : String} (h : Ended b) (hne : b.toList ≠ []) : Ended (a ++ b) := by
  unfold Ended at *
  rw [List.getLast?_eq_some_getLast hne] at h
  rw [String.toList_append, List.getLast?_append, List.getLast?_eq_some_getLast hne, Option.some_or]
  exact h

theorem joinable_plain : Joinable Plain := ⟨Wording.plain, fun ha hb _ => ha.append hb⟩

theorem joinable_balanced : Joinable fun s => Balanced s.toList where
  wording h := h.plain.balanced
  append ha hb _ := by
    rw [String.toList_append]
    exact ha.append hb

theorem wording_empty : Wording "" := by decide

theorem plain_empty : Plain "" := wording_empty.plain

theorem led_empty : Led "" := by decide

theorem Wording.append {a b : String} (ha : Wording a) (hb : Wording b) : Wording (a ++ b) := by
  unfold Wording at *
  rw [String.toList_append, List.mem_append, List.mem_append]
  exact ⟨not_or.2 ⟨ha.1, hb.1⟩, not_or.2 ⟨ha.2, hb.2⟩⟩

/-! ## Numbers -/

theorem wording_toString (n : Int) : Wording (toString n) := by
  have hchars : ∀ c ∈ (toString n).toList, c = '-' ∨ c.isDigit = true := by
    intro c hc
    rw [Int.toString_eq_repr, Int.repr_eq_if] at hc
    split at hc
    · rw [Nat.toList_repr] at hc
      exact .inr (Nat.isDigit_of_mem_toDigits (by decide) (by decide) hc)
    · rw [String.toList_append, List.mem_append, Nat.toList_repr] at hc
      rcases hc with hc | hc
      · exact .inl (List.mem_singleton.1 hc)
      · exact .inr (Nat.isDigit_of_mem_toDigits (by decide) (by decide) hc)
  refine ⟨fun h => ?_, fun h => ?_⟩
  · exact absurd (hchars _ h) (by decide)
  · exact absurd (hchars _ h) (by decide)

/-! ## What the clauses are made of -/

/-- The texts of the entries that a clause lists; there are none where they cannot be read. -/
def entryTexts : Except Fault (List Value) → List String
  | .ok entries => entries.map Value.keywordText
  | .error _ => []

/-- The text of an optional part, where it counts as given. -/
def partText (v : Value) (text : String) : List String := if v.truth then [text] else []

/-- The texts of a join, its table apart. -/
def Join.fragments (j : Join) : List String :=
  partText j.kind j.kind.keywordText ++ partText j.tableAlias j.tableAlias.display
    ++ partText j.on j.on.display

/-- What a join begins with. -/
def Join.opening (j : Join) : String :=
  (if j.kind.truth then j.kind.keywordText ++ " " else "") ++ "JOIN "

/-- What a join ends with. -/
def Join.closing (j : Join) : String :=
  (if j.tableAlias.truth then " AS " ++ j.tableAlias.display else "")
    ++ (if j.on.truth then " ON " ++ j.on.display else "")

theorem Join.render_eq (j : Join) (subquery : Option String) :
    j.render subquery = j.opening ++ (match subquery with
      | some sql => "(" ++ sql ++ ")"
      | none => j.table.display) ++ j.closing := by
  unfold Join.render Join.opening Join.closing
  exact String.append_assoc

theorem led_if {b : Bool} {whole : String} (h : Led whole) : Led (if b then whole else "") := by
  split
  · exact h
  · exact led_empty

theorem Join.opening_ended (j : Join) : Ended j.opening :=
  Ended.append (Wording.ended (by decide)) (by decide)

theorem Join.closing_led (j : Join) : Led j.closing :=
  Led.append (led_if (Led.of_head (c := ' ') rfl (by decide) _))
    (led_if (Led.of_head (c := ' ') rfl (by decide) _))

/-- The texts of the clauses that hold no value to bind. -/
def Clauses.fragments (c : Clauses) : List String :=
  entryTexts (Clause.columns c.fields) ++ entryTexts (Clause.columns c.groupBy)
    ++ entryTexts (Clause.orderItems c.orderBy)

section Classes

variable {P : String → Prop} (hP : Joinable P)

include hP

theorem Joinable.empty : P "" := hP.wording wording_empty

/-- A text behind wording. -/
theorem Joinable.behind {lead b : String} (hlead : Wording lead) (hb : P b) : P (lead ++ b) :=
  hP.append (hP.wording hlead) hb (.inl hlead.ended)

/-- A text before wording. -/
theorem Joinable.before {a word : String} (ha : P a) (hword : Wording word) (hled : Led word) :
    P (a ++ word) :=
  hP.append ha (hP.wording hword) (.inr hled)

theorem Joinable.parens {sql : String} (h : P sql) : P ("(" ++ sql ++ ")") :=
  hP.before (hP.behind (by decide) h) (by decide) (by decide)

theorem Joinable.intercalate {sep : String} (hsep : Wording sep) (hled : Led sep)
    (hne : sep.toList ≠ []) {texts : List String} (h : ∀ t ∈ texts, P t) :
    P (sep.intercalate texts) := by
  induction texts with
  | nil =>
    rw [String.intercalate_nil]
    exact hP.empty
  | cons t texts ih =>
    cases texts with
    | nil =>
      rw [String.intercalate_singleton]
      exact h t List.mem_cons_self
    | cons u texts =>
      rw [String.intercalate_cons_cons]
      exact hP.append (hP.before (h t List.mem_cons_self) hsep hled)
        (ih fun x hx => h x (List.mem_cons_of_mem _ hx)) (.inl (hsep.ended.append hne))

theorem Joinable.commas {texts : List String} (h : ∀ t ∈ texts, P t) : P (Value.commas texts) :=
  hP.intercalate (by decide) (by decide) (by decide) h

theorem Joinable.joined {texts : List String} (h : ∀ t ∈ texts, P t) :
    P (ConditionSet.joined texts) :=
  hP.intercalate (by decide) (by decide) (by decide) h

theorem Joinable.listed {entries : List Value} (h : ∀ t ∈ entryTexts (.ok entries), P t) :
    P (Clause.listed entries) :=
  hP.commas h

theorem Joinable.fields {v : Value} {t : String} (ht : Clause.fields v = .ok t)
    (h : ∀ x ∈ entryTexts (Clause.columns v), P x) : P t := by
  rw [Clause.fields, bind_eq_ok] at ht
  obtain ⟨entries, hentries, ht⟩ := ht
  rw [hentries] at h
  cases entries with
  | nil =>
    cases ht
    exact hP.wording (by decide)
  | cons e entries =>
    cases ht
    exact hP.listed h

theorem Joinable.columnClause {lead : String} {v : Value} {t : String} (hlead : Wording lead)
    (ht : Clause.columnClause lead v = .ok t) (h : ∀ x ∈ entryTexts (Clause.columns v), P x) :
    P t := by
  rw [Clause.columnClause, bind_eq_ok] at ht
  obtain ⟨entries, hentries, ht⟩ := ht
  rw [hentries] at h
  cases entries with
  | nil =>
    cases ht
    exact hP.empty
  | cons e entries =>
    cases ht
    exact hP.behind hlead (hP.listed h)

theorem Joinable.groupBy {v : Value} {t : String} (ht : Clause.groupBy v = .ok t)
    (h : ∀ x ∈ entryTexts (Clause.columns v), P x) : P t :=
  hP.columnClause (by decide) ht h

theorem Joinable.returning {v : Value} {t : String} (ht : Clause.returning v = .ok t)
    (h : ∀ x ∈ entryTexts (Clause.columns v), P x) : P t :=
  hP.columnClause (by decide) ht h

theorem Joinable.conflictTarget {v : Value} {t : String} (ht : Clause.conflictTarget v = .ok t)
    (h : ∀ x ∈ entryTexts (Clause.columns v), P x) : P t := by
  rw [Clause.conflictTarget, bind_eq_ok] at ht
  obtain ⟨entries, hentries, ht⟩ := ht
  rw [hentries] at h
  cases entries with
  | nil => cases ht
  | cons e entries =>
    cases ht
    exact hP.parens (hP.listed h)

/-- An optional part with what is written around it. -/
theorem Joinable.part {v : Value} {text whole : String} (hwhole : P text → P whole)
    (h : ∀ x ∈ partText v text, P x) : P (if v.truth then whole else "") := by
  unfold partText at h
  split
  · rename_i hv
    rw [if_pos hv] at h
    exact hwhole (h text (List.mem_singleton_self text))
  · exact hP.empty

theorem Joinable.conflictKeyword {v : Value} (h : ∀ x ∈ partText v v.keywordText, P x) :
    P (Clause.conflictKeyword v) :=
  hP.part (fun hk => hP.before (hP.behind (by decide) hk) (by decide) (by decide)) h

theorem Joinable.orderBy {v : Value} {t : String} (ht : Clause.orderBy v = .ok t)
    (h : ∀ x ∈ entryTexts (Clause.orderItems v), P x) : P t := by
  rw [Clause.orderBy, bind_eq_ok] at ht
  obtain ⟨entries, hentries, ht⟩ := ht
  rw [hentries] at h
  cases entries with
  | nil =>
    cases ht
    exact hP.empty
  | cons e entries =>
    cases ht
    exact hP.behind (by decide) (hP.listed h)

/-! ## Joins -/

theorem Joinable.opening {j : Join} (h : ∀ x ∈ j.fragments, P x) : P j.opening := by
  simp only [Join.fragments, List.forall_mem_append] at h
  exact hP.before (hP.part (fun hk => hP.before hk (by decide) (by decide)) h.1.1) (by decide)
    (by decide)

theorem Joinable.closing {j : Join} (h : ∀ x ∈ j.fragments, P x) : P j.closing := by
  simp only [Join.fragments, List.forall_mem_append] at h
  refine hP.append (hP.part (fun ha => hP.behind (by decide) ha) h.1.2)
    (hP.part (fun ho => hP.behind (by decide) ho) h.2) (.inr ?_)
  exact led_if (Led.of_head (c := ' ') rfl (by decide) _)

/-- A join of a table. -/
theorem Joinable.renderTable {j : Join} (h : ∀ x ∈ j.fragments, P x) (ht : P j.table.display) :
    P (j.render none) := by
  rw [Join.render_eq]
  exact hP.append (hP.append (hP.opening h) ht (.inl j.opening_ended)) (hP.closing h)
    (.inr j.closing_led)

/-- A join of a subquery. -/
theorem Joinable.renderQuery {j : Join} (h : ∀ x ∈ j.fragments, P x) {sql : String} (hs : P sql) :
    P (j.render (some sql)) := by
  rw [Join.render_eq]
  exact hP.append (hP.append (hP.opening h) (hP.parens hs) (.inl j.opening_ended)) (hP.closing h)
    (.inr j.closing_led)

theorem Joinable.renderAll {given : Bool} {texts : List String} (h : ∀ t ∈ texts, P t) :
    P (Join.renderAll given texts) := by
  unfold Join.renderAll
  split
  · exact hP.behind (by decide) (hP.intercalate (by decide) (by decide) (by decide) h)
  · exact hP.empty

end Classes

/-! ## Clauses that may follow a placeholder -/

theorem columnClause_led {lead : String} {c : Char} (hc : lead.toList.head? = some c)
    (hd : Text.isDigit c = false) {v : Value} {t : String}
    (ht : Clause.columnClause lead v = .ok t) : Led t := by
  rw [Clause.columnClause, bind_eq_ok] at ht
  obtain ⟨entries, _, ht⟩ := ht
  cases entries with
  | nil =>
    cases ht
    exact led_empty
  | cons e entries =>
    cases ht
    exact Led.of_head hc hd _

theorem groupBy_led {v : Value} {t : String} (ht : Clause.groupBy v = .ok t) : Led t :=
  columnClause_led (c := ' ') rfl (by decide) ht

theorem returning_led {v : Value} {t : String} (ht : Clause.returning v = .ok t) : Led t :=
  columnClause_led (c := ' ') rfl (by decide) ht

theorem orderBy_led {v : Value} {t : String} (ht : Clause.orderBy v = .ok t) : Led t := by
  rw [Clause.orderBy, bind_eq_ok] at ht
  obtain ⟨entries, _, ht⟩ := ht
  cases entries with
  | nil =>
    cases ht
    exact led_empty
  | cons e entries =>
    cases ht
    exact Led.of_head (c := ' ') rfl (by decide) _

theorem FilterPiece.clause_led {keyword : String} (f : FilterPiece) : Led (f.clause keyword) := by
  unfold FilterPiece.clause
  split
  · rw [String.append_assoc, String.append_assoc]
    exact Led.of_head (c := ' ') rfl (by decide) _
  · exact led_empty

/-- A row bound is empty or a number after its lead. -/
theorem bound_eq_ok {lead : String} {strict : Bool} {v : Value} {t : String}
    (ht : Clause.bound lead strict v = .ok t) : t = "" ∨ ∃ n : Int, t = lead ++ toString n := by
  have hgiven : ∀ w : Value, (if !strict && !w.truth then .ok ""
      else w.toInteger.map fun n => lead ++ toString n) = Except.ok (ε := Fault) t →
      t = "" ∨ ∃ n : Int, t = lead ++ toString n := by
    intro w hw
    split at hw
    · cases hw
      exact .inl rfl
    · obtain ⟨n, _, hn⟩ := map_eq_ok.1 hw
      exact .inr ⟨n, hn.symm⟩
  unfold Clause.bound at ht
  split at ht
  · cases ht
    exact .inl rfl
  · exact hgiven _ ht

theorem limit_wording {strict : Bool} {v : Value} {t : String}
    (ht : Clause.limit strict v = .ok t) : Wording t ∧ Led t := by
  rcases bound_eq_ok ht with rfl | ⟨n, rfl⟩
  · exact ⟨wording_empty, led_empty⟩
  · exact ⟨Wording.append (by decide) (wording_toString n),
      Led.of_head (c := ' ') rfl (by decide) _⟩

theorem offset_wording {strict : Bool} {v : Value} {t : String}
    (ht : Clause.offset strict v = .ok t) : Wording t ∧ Led t := by
  rcases bound_eq_ok ht with rfl | ⟨n, rfl⟩
  · exact ⟨wording_empty, led_empty⟩
  · exact ⟨Wording.append (by decide) (wording_toString n),
      Led.of_head (c := ' ') rfl (by decide) _⟩

end Querywright
