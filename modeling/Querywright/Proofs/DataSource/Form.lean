/-
  Options that were written are read back.

  * `isFormChar`: the characters that options are written with; none of them delimits.
  * `decode_encode`: a name or a value. `cutAtEvery_encodePairs`: the parts of the text.
  * `decodePairs_encodePairs`: options that have different names, and values. Those that were read
    are so (`nodup_decodePairs`, `ne_empty_of_mem_decodePairs`).
-/
import Mathlib.Data.List.Basic
import Querywright.Proofs.DataSource.Password
import Querywright.Proofs.Text.Utf8

namespace Querywright

/-! ## Cutting at every mark -/

namespace Text

variable {c : Char} {a : List Char}

theorem cutAtEvery_cons (c x : Char) (rest : List Char) :
    cutAtEvery c (x :: rest) =
      if x = c then [] :: cutAtEvery c rest
      else match cutAtEvery c rest with
        | [] => [[x]]
        | part :: parts => (x :: part) :: parts := rfl

theorem cutAtEvery_of_not_mem (h : c ∉ a) : cutAtEvery c a = [a] := by
  induction a with
  | nil => rfl
  | cons x a ih =>
    have hx : x ≠ c := fun hx => h (hx ▸ List.mem_cons_self)
    rw [cutAtEvery_cons, if_neg hx, ih fun ha => h (List.mem_cons_of_mem x ha)]

theorem cutAtEvery_append (h : c ∉ a) (b : List Char) :
    cutAtEvery c (a ++ c :: b) = a :: cutAtEvery c b := by
  induction a with
  | nil => rw [List.nil_append, cutAtEvery_cons, if_pos rfl]
  | cons x a ih =>
    have hx : x ≠ c := fun hx => h (hx ▸ List.mem_cons_self)
    rw [List.cons_append, cutAtEvery_cons, if_neg hx, ih fun ha => h (List.mem_cons_of_mem x ha)]

/-- Texts without the mark are cut apart again after they were joined with it. -/
theorem cutAtEvery_intercalate {sep : String} (hsep : sep.toList = [c]) {parts : List String}
    (hsome : parts ≠ []) (h : ∀ part ∈ parts, c ∉ part.toList) :
    cutAtEvery c (sep.intercalate parts).toList = parts.map String.toList := by
  induction parts with
  | nil => exact absurd rfl hsome
  | cons part parts ih =>
    obtain ⟨hpart, hparts⟩ := List.forall_mem_cons.1 h
    cases parts with
    | nil =>
      rw [String.intercalate_singleton]
      exact cutAtEvery_of_not_mem hpart
    | cons next parts =>
      rw [String.intercalate_cons_cons, String.toList_append, String.toList_append, hsep,
        List.append_assoc, List.singleton_append, cutAtEvery_append hpart,
        ih (List.cons_ne_nil _ _) hparts]
      rfl

theorem not_mem_intercalate {d : Char} {sep : String} (hsep : d ∉ sep.toList)
    {parts : List String} (h : ∀ part ∈ parts, d ∉ part.toList) :
    d ∉ (sep.intercalate parts).toList := by
  induction parts with
  | nil => exact List.not_mem_nil
  | cons part parts ih =>
    obtain ⟨hpart, hparts⟩ := List.forall_mem_cons.1 h
    cases parts with
    | nil => rwa [String.intercalate_singleton]
    | cons next parts =>
      rw [String.intercalate_cons_cons, String.toList_append, String.toList_append,
        List.mem_append, List.mem_append, not_or, not_or]
      exact ⟨⟨hpart, hsep⟩, ih hparts⟩

end Text

namespace Form

/-! ## What is written -/

/-- A character that options are written with. -/
def isFormChar (c : Char) : Bool :=
  c.isAlphanum || ['_', '.', '-', '~', '*', '+', '%'].contains c

theorem isFormChar_of_isSafe {b : UInt8} (h : isSafe b = true) :
    isFormChar (Char.ofNat b.toNat) = true := by
  rw [isSafe, Bool.and_eq_true] at h
  simp only [Bool.or_eq_true, decide_eq_true_eq] at h
  rcases h.2 with ((((halphanum | hc) | hc) | hc) | hc) | hc
  · rw [isFormChar, halphanum, Bool.true_or]
  all_goals
    rw [hc]
    rfl

theorem isFormChar_of_encodeByte (b : UInt8) : ∀ c ∈ encodeByte b, isFormChar c = true := by
  have hdigit {n : Nat} (h : n < 16) : isFormChar (hexDigit n) = true := by
    have hall : ∀ n : Fin 16, isFormChar (hexDigit n) = true := by decide
    exact hall ⟨n, h⟩
  rw [encodeByte]
  split
  · exact List.forall_mem_singleton.2 rfl
  split
  · rename_i hsafe
    exact List.forall_mem_singleton.2 (isFormChar_of_isSafe hsafe)
  · have hlt : b.toNat < 256 := b.toNat_lt
    exact List.forall_mem_cons.2 ⟨rfl, List.forall_mem_cons.2 ⟨hdigit (by omega),
      List.forall_mem_singleton.2 (hdigit (by omega))⟩⟩

theorem isFormChar_of_encode {s : List Char} {c : Char} (h : c ∈ encode s) :
    isFormChar c = true := by
  obtain ⟨b, -, hc⟩ := List.mem_flatMap.1 h
  exact isFormChar_of_encodeByte b c hc

theorem not_mem_encode {c : Char} (h : isFormChar c = false) (s : List Char) : c ∉ encode s := by
  intro hmem
  rw [isFormChar_of_encode hmem] at h
  cases h

/-! ## Names and values -/

/-- A plus sign is read as a blank. -/
def blank (c : Char) : Char := if c = '+' then ' ' else c

theorem percentBytes_cons {c : Char} (h : c ≠ '%') (rest : List Char) :
    percentBytes (c :: rest) = UInt8.ofNat c.toNat :: percentBytes rest := by
  rw [percentBytes.eq_def]
  split
  · rename_i hsplit
    cases hsplit
  · rename_i hsplit
    cases hsplit
    exact absurd rfl h
  · rename_i hsplit
    cases hsplit
    rfl

theorem percentBytes_percent (h l : Char) (rest : List Char) :
    percentBytes ('%' :: h :: l :: rest) = match hexValue? h, hexValue? l with
      | some a, some b => UInt8.ofNat (16 * a + b) :: percentBytes rest
      | _, _ => UInt8.ofNat 37 :: percentBytes (h :: l :: rest) := rfl

theorem hexValue?_hexDigit {n : Nat} (h : n < 16) : hexValue? (hexDigit n) = some n := by
  have hall : ∀ n : Fin 16, hexValue? (hexDigit n) = some n.val := by decide
  exact hall ⟨n, h⟩

theorem blank_hexDigit {n : Nat} (h : n < 16) : blank (hexDigit n) = hexDigit n := by
  have hall : ∀ n : Fin 16, blank (hexDigit n) = hexDigit n := by decide
  exact hall ⟨n, h⟩

/-- The byte of a character that stands for one. -/
theorem ofNat_toNat_char (b : UInt8) : UInt8.ofNat (Char.ofNat b.toNat).toNat = b := by
  have hlt : b.toNat < 256 := b.toNat_lt
  have hvalid : b.toNat.isValidChar := .inl (by omega)
  have hchar : (Char.ofNat b.toNat).toNat = b.toNat := congrArg Char.toNat (dif_pos hvalid)
  rw [hchar, UInt8.ofNat_toNat]

/-- A character whose byte is written in another way is not written as itself. -/
theorem ne_of_isSafe {b : UInt8} (h : isSafe b = true) {c : Char}
    (hc : isSafe (UInt8.ofNat c.toNat) = false) : Char.ofNat b.toNat ≠ c := by
  rintro rfl
  rw [ofNat_toNat_char, h] at hc
  cases hc

/-- A byte is read back. -/
theorem percentBytes_encodeByte (b : UInt8) (rest : List Char) :
    percentBytes ((encodeByte b).map blank ++ rest) = b :: percentBytes rest := by
  rw [encodeByte]
  split
  · rename_i hspace
    have hb : UInt8.ofNat ' '.toNat = b := by
      rw [← UInt8.ofNat_toNat (x := b), hspace]
      rfl
    exact (percentBytes_cons (by decide) rest).trans (congrArg (· :: _) hb)
  split
  · rename_i hsafe
    have hblank : blank (Char.ofNat b.toNat) = Char.ofNat b.toNat :=
      if_neg (ne_of_isSafe hsafe (by decide))
    have hpercent : Char.ofNat b.toNat ≠ '%' := ne_of_isSafe hsafe (by decide)
    rw [List.map_singleton, hblank, List.singleton_append, percentBytes_cons hpercent,
      ofNat_toNat_char]
  · have hlt : b.toNat < 256 := b.toNat_lt
    have hhigh : b.toNat / 16 < 16 := by omega
    have hlow : b.toNat % 16 < 16 := by omega
    have hb : 16 * (b.toNat / 16) + b.toNat % 16 = b.toNat := Nat.div_add_mod _ _
    have hpercent : blank '%' = '%' := rfl
    rw [List.map_cons, List.map_cons, List.map_cons, List.map_nil, blank_hexDigit hhigh,
      blank_hexDigit hlow, hpercent, List.cons_append, List.cons_append, List.cons_append,
      List.nil_append, percentBytes_percent, hexValue?_hexDigit hhigh, hexValue?_hexDigit hlow]
    dsimp only
    rw [hb, UInt8.ofNat_toNat]

/-- A run of ASCII is decoded as a whole. -/
theorem decodeRuns_of_ascii {s : List Char} (h : ∀ c ∈ s, c.toNat < 128) (run : List Char) :
    decodeRuns run s = decodeRun (run.reverse ++ s) := by
  induction s generalizing run with
  | nil => rw [decodeRuns, List.append_nil]
  | cons c s ih =>
    obtain ⟨hc, hs⟩ := List.forall_mem_cons.1 h
    rw [decodeRuns, if_pos hc, ih hs, List.reverse_cons, List.append_assoc]
    rfl

theorem ascii_of_isFormChar {c : Char} (h : isFormChar c = true) : (blank c).toNat < 128 := by
  rcases Bool.or_eq_true_iff.1 h with halphanum | hmark
  · refine Nat.lt_of_le_of_lt ?_ (DataSource.ascii_of_isAlphanum halphanum)
    rw [blank]
    split
    · rename_i hplus
      rw [hplus]
      decide
    · exact Nat.le_refl _
  · simp only [List.contains_eq_mem, List.mem_cons, List.not_mem_nil, or_false,
      decide_eq_true_eq] at hmark
    rcases hmark with rfl | rfl | rfl | rfl | rfl | rfl | rfl <;> decide

/-- A name or a value is read back. -/
theorem decode_encode (s : List Char) : decode (encode s) = s := by
  have hascii : ∀ c ∈ (encode s).map blank, c.toNat < 128 := by
    rintro _ hmem
    obtain ⟨c, hc, rfl⟩ := List.mem_map.1 hmem
    exact ascii_of_isFormChar (isFormChar_of_encode hc)
  have hbytes : percentBytes ((encode s).map blank) = Text.Utf8.encode s := by
    rw [encode]
    induction Text.Utf8.encode s with
    | nil => rfl
    | cons b bytes ih =>
      rw [List.flatMap_cons, List.map_append, percentBytes_encodeByte, ih]
  have hrun : decode (encode s) = decodeRun ((encode s).map blank) :=
    decodeRuns_of_ascii hascii []
  rw [hrun, decodeRun, hbytes, Text.Utf8.decode_encode]

theorem encode_ne_nil {s : List Char} (h : s ≠ []) : encode s ≠ [] := by
  intro hnil
  have hback := decode_encode s
  rw [hnil] at hback
  exact h hback.symm

/-! ## What is there stays there -/

theorem percentBytes_ne_nil {s : List Char} (h : s ≠ []) : percentBytes s ≠ [] := by
  rw [percentBytes.eq_def]
  split
  · exact absurd rfl h
  · split <;> exact List.cons_ne_nil _ _
  · exact List.cons_ne_nil _ _

theorem decodeRun_ne_nil {run : List Char} (h : run ≠ []) : decodeRun run ≠ [] :=
  Text.Utf8.decodeFrom_ne_nil (List.cons_ne_nil _ _) (.inr (percentBytes_ne_nil h))

theorem decodeRuns_ne_nil {run s : List Char} (h : run ≠ [] ∨ s ≠ []) : decodeRuns run s ≠ [] := by
  induction s generalizing run with
  | nil =>
    rw [decodeRuns]
    exact decodeRun_ne_nil (by simpa using h)
  | cons c s ih =>
    rw [decodeRuns]
    split
    · exact ih (.inl (List.cons_ne_nil _ _))
    · exact List.append_ne_nil_of_right_ne_nil _ (List.cons_ne_nil _ _)

/-- A value that is written is not read as empty. -/
theorem decode_ne_nil {s : List Char} (h : s ≠ []) : decode s ≠ [] :=
  decodeRuns_ne_nil (.inr (by simpa using h))

/-! ## Options -/

/-- An option as it is written. -/
def encodePair (p : String × String) : List Char :=
  encode p.1.toList ++ '=' :: encode p.2.toList

theorem encodePairs_eq (pairs : List (String × String)) :
    encodePairs pairs = "&".intercalate (pairs.map fun p => String.ofList (encodePair p)) := rfl

theorem not_mem_encodePair {c : Char} (h : isFormChar c = false) (heq : c ≠ '=')
    (p : String × String) : c ∉ encodePair p := by
  rw [encodePair, List.mem_append, List.mem_cons]
  rintro (hname | hmark | hvalue)
  · exact not_mem_encode h _ hname
  · exact heq hmark
  · exact not_mem_encode h _ hvalue

theorem not_mem_encodePairs {c : Char} (h : isFormChar c = false) (heq : c ≠ '=') (hamp : c ≠ '&')
    (pairs : List (String × String)) : c ∉ (encodePairs pairs).toList := by
  rw [encodePairs_eq]
  have hsep : c ∉ "&".toList := fun hmem => hamp (List.mem_singleton.1 hmem)
  refine Text.not_mem_intercalate hsep fun part hpart => ?_
  obtain ⟨p, -, rfl⟩ := List.mem_map.1 hpart
  rw [String.toList_ofList]
  exact not_mem_encodePair h heq p

/-- The parts of the text are the options as they are written. -/
theorem cutAtEvery_encodePairs {pairs : List (String × String)} (h : pairs ≠ []) :
    Text.cutAtEvery '&' (encodePairs pairs).toList = pairs.map encodePair := by
  rw [encodePairs_eq, Text.cutAtEvery_intercalate rfl (by simpa using h) fun part hpart => ?_]
  · rw [List.map_map]
    exact List.map_congr_left fun p _ => String.toList_ofList
  · obtain ⟨p, -, rfl⟩ := List.mem_map.1 hpart
    rw [String.toList_ofList]
    exact not_mem_encodePair (by decide) (by decide) p

theorem decodePair_encodePair {p : String × String} (h : p.2 ≠ "") :
    decodePair (encodePair p) = some p := by
  have hvalue : encode p.2.toList ≠ [] := encode_ne_nil (by simpa using h)
  rw [decodePair, encodePair, Text.cutAtFirst_append _ (not_mem_encode (by decide) _)]
  simp [hvalue, decode_encode]

/-! ## The first of each name -/

theorem firstOfEach_cons (seen : List String) (p : String × String)
    (rest : List (String × String)) :
    firstOfEach seen (p :: rest) =
      if seen.contains p.1 then firstOfEach seen rest
      else p :: firstOfEach (p.1 :: seen) rest := rfl

theorem firstOfEach_of_nodup {seen : List String} {pairs : List (String × String)}
    (hnames : (pairs.map (·.1)).Nodup) (hseen : ∀ p ∈ pairs, p.1 ∉ seen) :
    firstOfEach seen pairs = pairs := by
  induction pairs generalizing seen with
  | nil => rfl
  | cons p rest ih =>
    obtain ⟨hp, hrest⟩ := List.forall_mem_cons.1 hseen
    obtain ⟨hfirst, hnames⟩ := List.nodup_cons.1 hnames
    rw [firstOfEach_cons, if_neg (by simpa using hp), ih hnames]
    intro q hq
    rw [List.mem_cons, not_or]
    exact ⟨fun hsame => hfirst (List.mem_map.2 ⟨q, hq, hsame⟩), hrest q hq⟩

theorem firstOfEach_sublist (seen : List String) (pairs : List (String × String)) :
    (firstOfEach seen pairs).Sublist pairs := by
  induction pairs generalizing seen with
  | nil => exact List.Sublist.refl _
  | cons p rest ih =>
    rw [firstOfEach_cons]
    split
    · exact (ih seen).cons p
    · exact (ih (p.1 :: seen)).cons_cons p

theorem nodup_firstOfEach (seen : List String) (pairs : List (String × String)) :
    ((firstOfEach seen pairs).map (·.1)).Nodup ∧ ∀ p ∈ firstOfEach seen pairs, p.1 ∉ seen := by
  induction pairs generalizing seen with
  | nil => exact ⟨List.nodup_nil, List.forall_mem_nil _⟩
  | cons p rest ih =>
    rw [firstOfEach_cons]
    split
    · exact ih seen
    · rename_i hp
      obtain ⟨hnodup, hseen⟩ := ih (p.1 :: seen)
      rw [List.map_cons, List.nodup_cons]
      refine ⟨⟨fun hmem => ?_, hnodup⟩, List.forall_mem_cons.2 ⟨by simpa using hp, ?_⟩⟩
      · obtain ⟨q, hq, hsame⟩ := List.mem_map.1 hmem
        exact hseen q hq (hsame ▸ List.mem_cons_self)
      · exact fun q hq hmem => hseen q hq (List.mem_cons_of_mem _ hmem)

/-- Of pairs with one name, one is kept. -/
theorem exists_mem_firstOfEach {seen : List String} {pairs : List (String × String)}
    {p : String × String} (h : p ∈ pairs) (hseen : p.1 ∉ seen) :
    ∃ q ∈ firstOfEach seen pairs, q.1 = p.1 := by
  induction pairs generalizing seen with
  | nil => cases h
  | cons first rest ih =>
    rw [firstOfEach_cons]
    rcases List.mem_cons.1 h with rfl | hrest
    · rw [if_neg (by simpa using hseen)]
      exact ⟨p, List.mem_cons_self, rfl⟩
    · split
      · exact ih hrest hseen
      · by_cases hsame : first.1 = p.1
        · exact ⟨first, List.mem_cons_self, hsame⟩
        · have hseen' : p.1 ∉ first.1 :: seen := by simp [hseen, Ne.symm hsame]
          obtain ⟨q, hq, hname⟩ := ih hrest hseen'
          exact ⟨q, List.mem_cons_of_mem _ hq, hname⟩

/-- The first pair of each name is kept. -/
theorem lookup_firstOfEach {seen : List String} {pairs : List (String × String)} {name : String}
    (h : name ∉ seen) : (firstOfEach seen pairs).lookup name = pairs.lookup name := by
  induction pairs generalizing seen with
  | nil => rfl
  | cons first rest ih =>
    rw [firstOfEach_cons, List.lookup_cons]
    split
    · rename_i hseen
      have hne : name ≠ first.1 := by
        rintro rfl
        exact h (List.contains_iff_mem.1 hseen)
      rw [beq_false_of_ne hne]
      exact ih h
    · rw [List.lookup_cons]
      by_cases hname : name = first.1
      · rw [hname, beq_self_eq_true]
      · rw [beq_false_of_ne hname]
        exact ih (List.not_mem_cons_of_ne_of_not_mem hname h)

/-- Options with different names, and values, are read back. -/
theorem decodePairs_encodePairs {pairs : List (String × String)}
    (hnames : (pairs.map (·.1)).Nodup) (hvalues : ∀ p ∈ pairs, p.2 ≠ "") :
    decodePairs (encodePairs pairs).toList = pairs := by
  by_cases hsome : pairs = []
  · subst hsome
    rfl
  · have hread : (pairs.map encodePair).filterMap decodePair = pairs := by
      rw [List.filterMap_map]
      refine (List.filterMap_congr fun p hp => ?_).trans List.filterMap_some
      exact decodePair_encodePair (hvalues p hp)
    rw [decodePairs, cutAtEvery_encodePairs hsome, hread]
    exact firstOfEach_of_nodup hnames fun _ _ => List.not_mem_nil

/-- Options that were read have different names. -/
theorem nodup_decodePairs (s : List Char) : ((decodePairs s).map (·.1)).Nodup :=
  (nodup_firstOfEach [] _).1

/-- An option with a value is read with one. -/
theorem decodePair_eq_some {part : List Char} {p : String × String} :
    decodePair part = some p ↔ ∃ name value, Text.cutAtFirst '=' part = (name, some value) ∧
      value ≠ [] ∧ p = (String.ofList (decode name), String.ofList (decode value)) := by
  rw [decodePair]
  rcases Text.cutAtFirst '=' part with ⟨name, _ | value⟩
  · simp
  · cases value <;> simp [eq_comm]

theorem ne_empty_of_mem_decodePairs {s : List Char} {p : String × String}
    (h : p ∈ decodePairs s) : p.2 ≠ "" := by
  obtain ⟨part, -, hpart⟩ := List.mem_filterMap.1 ((firstOfEach_sublist _ _).subset h)
  obtain ⟨name, value, -, hvalue, rfl⟩ := decodePair_eq_some.1 hpart
  simpa using decode_ne_nil hvalue

end Form
end Querywright
