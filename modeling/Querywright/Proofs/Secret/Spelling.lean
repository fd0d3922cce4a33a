/-
  Names of secrets in any spelling.

  * `plain?`: the letter or digit that a character leaves of a name. `compact_eq`: each character
    leaves what it leaves alone, whatever stands around it, the final sigma included.
  * `Respelled`: a text with its letters in any case and with separators put in.
  * `isSensitiveKey_iff`: a key is sensitive exactly when a part of it is a secret word by itself.
  * `secret_words_in_any_spelling`: so it stays sensitive between other texts and in another
    spelling, and its value is masked.
-/
import Querywright.Proofs.DataSource.Password
import Querywright.Secret.Redaction

namespace Querywright

namespace Text

theorem hasWord_iff {word s : List Char} : hasWord word s = true ↔ word <:+: s := by
  induction s with
  | nil => rw [hasWord, List.isEmpty_iff, List.infix_nil]
  | cons x rest ih =>
    rw [hasWord, Bool.or_eq_true, List.isPrefixOf_iff_prefix, ih, List.infix_cons_iff]

end Text

namespace Secret

/-! ## What is left of a name -/

/-- The lower case letter or the digit that a character leaves of a name. -/
def plain? (c : Char) : Option Char := (Text.lowerChar c).find? isPlain

/-- No character leaves more than one. -/
theorem filter_lowerChar (c : Char) :
    (Text.lowerChar c).filter isPlain = (plain? c).toList := by
  have hone (x : Char) : [x].filter isPlain = ([x].find? isPlain).toList := by
    cases h : isPlain x <;> simp [h]
  unfold plain? Text.lowerChar
  split
  · exact hone _
  · split
    · decide
    · exact hone _

theorem plain?_sigma : plain? (Char.ofNat 0x3A3) = none := by decide

/-- Which small sigma is written depends on the text around it, but neither of them is left. -/
theorem filter_lowerFrom (inWord : Bool) (s : List Char) :
    (Text.lowerFrom inWord s).filter isPlain = s.filterMap plain? := by
  induction s generalizing inWord with
  | nil => rfl
  | cons c rest ih =>
    rw [Text.lowerFrom, List.filter_append, ih]
    by_cases hsigma : c.toNat = 0x3A3
    · have hc : c = Char.ofNat 0x3A3 := by rw [← hsigma, Char.ofNat_toNat]
      rw [if_pos (beq_iff_eq.2 hsigma), List.filterMap_cons_none (hc ▸ plain?_sigma)]
      split <;> rfl
    · rw [if_neg (by simpa using hsigma), filter_lowerChar]
      cases h : plain? c with
      | none => rw [List.filterMap_cons_none h]; rfl
      | some x => rw [List.filterMap_cons_some h]; rfl

theorem compact_eq (name : List Char) : compact name = name.filterMap plain? :=
  filter_lowerFrom false name

/-! ## Other spellings -/

/-- A character whose lower case holds no ASCII letter or digit. -/
def IsSeparator (c : Char) : Prop := ∀ d ∈ Text.lower [c], d.isAlphanum = false

instance (c : Char) : Decidable (IsSeparator c) :=
  decidable_of_iff ((Text.lower [c]).all fun d => !d.isAlphanum) (by simp [IsSeparator])

/-- The second text is the first one with its ASCII letters in any case, and with separators put in
anywhere. -/
inductive Respelled : List Char → List Char → Prop where
  | nil : Respelled [] []
  | letter {c d : Char} {s t : List Char} :
    c.toLower = d.toLower → Respelled s t → Respelled (c :: s) (d :: t)
  | separator {d : Char} {s t : List Char} :
    IsSeparator d → Respelled s t → Respelled s (d :: t)

theorem plain?_toLower (c : Char) : plain? c.toLower = plain? c := by
  by_cases hc : c.toNat < 128
  · refine DataSource.forall_ascii (P := fun c => plain? c.toLower = plain? c) ?_ hc
    decide
  · have hupper : ¬(c.val ≥ 'A'.val ∧ c.val ≤ 'Z'.val) := by
      rintro ⟨-, hZ⟩
      have : c.toNat ≤ 90 := UInt32.le_iff_toNat_le.1 hZ
      omega
    have hsame : c.toLower = c := dif_neg hupper
    rw [hsame]

theorem isAlphanum_of_isPlain {c : Char} (h : isPlain c = true) : c.isAlphanum = true := by
  change (c.isUpper || c.isLower || c.isDigit) = true
  rw [Bool.or_assoc, Bool.or_eq_true]
  exact .inr h

theorem plain?_of_separator {c : Char} (h : IsSeparator c) : plain? c = none := by
  have hnone : compact [c] = [] := by
    refine List.filter_eq_nil_iff.2 fun d hd hplain => ?_
    have halphanum := isAlphanum_of_isPlain hplain
    rw [h d hd] at halphanum
    cases halphanum
  rw [compact_eq, List.filterMap_eq_nil_iff] at hnone
  exact hnone c List.mem_cons_self

theorem compact_respelled {s t : List Char} (h : Respelled s t) : compact t = compact s := by
  rw [compact_eq, compact_eq]
  induction h with
  | nil => rfl
  | letter hcase _ ih =>
    rw [List.filterMap_cons, List.filterMap_cons, ← plain?_toLower, ← hcase, plain?_toLower, ih]
  | separator hd _ ih => rw [List.filterMap_cons_none (plain?_of_separator hd), ih]

/-! ## Sensitive keys -/

theorem isSensitiveKey_iff_compact (key : String) :
    isSensitiveKey key = true ↔ ∃ word ∈ keyWords, word.toList <:+: compact key.toList := by
  simp only [isSensitiveKey, hasAnyWord, List.any_eq_true, Text.hasWord_iff]

/-- A key is sensitive exactly when a part of it, by itself, comes to a secret word. -/
theorem isSensitiveKey_iff (key : String) :
    isSensitiveKey key = true ↔
      ∃ word ∈ keyWords, ∃ part, part <:+: key.toList ∧ compact part = word.toList := by
  rw [isSensitiveKey_iff_compact]
  refine exists_congr fun word => and_congr_right fun _ => ?_
  simp only [compact_eq]
  constructor
  · rintro ⟨front, back, h⟩
    obtain ⟨left, right, hkey, hleft, -⟩ := List.filterMap_eq_append_iff.1 h.symm
    obtain ⟨before, part, rfl, -, hpart⟩ := List.filterMap_eq_append_iff.1 hleft
    exact ⟨part, ⟨before, right, hkey.symm⟩, hpart⟩
  · rintro ⟨part, hpart, hword⟩
    rw [← hword]
    exact hpart.filterMap plain?

/-- The secret words hold nothing but what is left of a name. -/
theorem compact_keyWords : ∀ word ∈ keyWords, compact word.toList = word.toList := by
  decide

/-- A part of the name is a secret word, in any case and with separators anywhere in it. -/
def SpellsSecret (name : List Char) : Prop :=
  ∃ word ∈ keyWords, ∃ part, part <:+: name ∧ Respelled word.toList part

theorem SpellsSecret.isSensitiveKey {key : String} (h : SpellsSecret key.toList) :
    isSensitiveKey key = true := by
  obtain ⟨word, hword, part, hpart, hspelled⟩ := h
  refine (isSensitiveKey_iff key).2 ⟨word, hword, part, hpart, ?_⟩
  rw [compact_respelled hspelled, compact_keyWords word hword]

theorem isSensitiveKey_append {key : String} (a b : String) (h : isSensitiveKey key = true) :
    isSensitiveKey (a ++ key ++ b) = true := by
  rw [isSensitiveKey_iff] at h ⊢
  obtain ⟨word, hword, part, hpart, hspelled⟩ := h
  refine ⟨word, hword, part, hpart.trans ?_, hspelled⟩
  rw [String.toList_append, String.toList_append]
  exact List.infix_append _ _ _

theorem isSensitiveKey_respelled {key other : String} (h : Respelled key.toList other.toList) :
    isSensitiveKey other = isSensitiveKey key := by
  rw [isSensitiveKey, isSensitiveKey, compact_respelled h]

theorem getElem?_redactEntries {entries : Entries} {i : Nat} {key v : Value}
    (h : entries[i]? = some (key, v)) :
    (redactEntries entries)[i]? =
      some (key, if isSensitiveKey key.display then .text mask else v) := by
  rw [redactEntries, List.getElem?_map, h]
  rfl

/-- A key is sensitive exactly when a part of it, read by itself, is a secret word without its case
and its separators. It stays so between any other texts. Putting separators in and writing ASCII
letters in the other case changes nothing about it. So the value of each entry is masked whose name
holds a secret word, in any case and with any separators in it, and the values of keys that are not
sensitive are kept. -/
theorem secret_words_in_any_spelling :
    (∀ key : String, isSensitiveKey key = true ↔
      ∃ word ∈ keyWords, ∃ part, part <:+: key.toList ∧ compact part = word.toList) ∧
    (∀ a key b : String, isSensitiveKey key = true → isSensitiveKey (a ++ key ++ b) = true) ∧
    (∀ key other : String, Respelled key.toList other.toList →
      isSensitiveKey other = isSensitiveKey key) ∧
    ∀ (entries : Entries) (i : Nat) (key v : Value), entries[i]? = some (key, v) →
      (SpellsSecret key.display.toList → (redactEntries entries)[i]? = some (key, .text mask)) ∧
      (isSensitiveKey key.display = false → (redactEntries entries)[i]? = some (key, v)) := by
  refine ⟨isSensitiveKey_iff, fun a _ b h => isSensitiveKey_append a b h,
    fun _ _ h => isSensitiveKey_respelled h, fun entries i key v hentry => ⟨?_, ?_⟩⟩
  · intro hspells
    rw [getElem?_redactEntries hentry, if_pos hspells.isSensitiveKey]
  · intro hclear
    rw [getElem?_redactEntries hentry, hclear]
    rfl

/-- Capital sigmas are separators, also at the end of a word. -/
theorem secret_words_in_any_spelling_sigma :
    Respelled "apikey".toList "API_ΣKeΣy".toList ∧
      isSensitiveKey ("x-" ++ "API_ΣKeΣy" ++ "Σ") = true ∧
      (redactEntries [(.text "host", .text "db"), (.text "x-API_ΣKeΣyΣ", .text "31415")])[1]? =
        some (.text "x-API_ΣKeΣyΣ", .text mask) := by
  have hmark : IsSeparator '_' := by decide
  have hsigma : IsSeparator 'Σ' := by decide
  have hspelled : Respelled "apikey".toList "API_ΣKeΣy".toList :=
    .letter rfl <| .letter rfl <| .letter rfl <| .separator hmark <| .separator hsigma <|
      .letter rfl <| .letter rfl <| .separator hsigma <| .letter rfl .nil
  obtain ⟨-, hcontext, hspelling, hentries⟩ := secret_words_in_any_spelling
  have hkey : isSensitiveKey "API_ΣKeΣy" = true := by
    rw [hspelling "apikey" _ hspelled]
    decide
  exact ⟨hspelled, hcontext "x-" _ "Σ" hkey, (hentries _ 1 _ _ rfl).1
    ⟨"apikey", by decide, _, ⟨"x-".toList, "Σ".toList, rfl⟩, hspelled⟩⟩

end Secret
end Querywright
