/-
  Indexes of placeholders in a text that is read after other texts.

  * `Reads p s is`: after the largest index `p`, the placeholders of `s` take the indexes `is`,
    and `s` leaves no literal open.
  * `Reads.append`: a text after another is read after the largest index of the first.
  * `Plain` texts hold no placeholder; they change no index wherever they stand.
  * `Chain p texts is`: the same for a list of texts, `Chain.intercalate` for the texts joined.
-/
import Querywright.Proofs.Outcome
import Querywright.Proofs.Placeholder.Lexing

namespace Querywright.Placeholder

open Text

/-! ## Indexes after one another -/

theorem highest_append (p : Int) (is js : List Int) :
    highest p (is ++ js) = highest (highest p is) js :=
  List.foldl_append

theorem highest_cons (p i : Int) (is : List Int) : highest p (i :: is) = highest (max p i) is := rfl

theorem le_highest (p : Int) (is : List Int) : p ≤ highest p is := by
  induction is generalizing p with
  | nil => exact Int.le_refl p
  | cons i is ih =>
    rw [highest_cons]
    have := ih (max p i)
    omega

theorem le_highest_of_mem {p i : Int} {is : List Int} (h : i ∈ is) : i ≤ highest p is := by
  induction is generalizing p with
  | nil => cases h
  | cons j is ih =>
    rw [highest_cons]
    rcases List.mem_cons.1 h with rfl | h
    · have := le_highest (max p i) is
      omega
    · exact ih h

theorem highest_le {p q : Int} {is : List Int} (hp : p ≤ q) (h : ∀ i ∈ is, i ≤ q) :
    highest p is ≤ q := by
  induction is generalizing p with
  | nil => exact hp
  | cons i is ih =>
    have := h i List.mem_cons_self
    rw [highest_cons]
    exact ih (by omega) fun j hj => h j (List.mem_cons_of_mem _ hj)

theorem highest_max (p q : Int) (is : List Int) :
    highest (max p q) is = max p (highest q is) := by
  induction is generalizing q with
  | nil => rfl
  | cons i is ih => rw [highest_cons, highest_cons, Int.max_assoc, ih]

/-- Which of two lists of indexes comes first does not matter for the largest one. -/
theorem highest_append_max (p : Int) (is js : List Int) :
    highest p (is ++ js) = max (highest p is) (highest p js) := by
  rw [highest_append, ← highest_max, Int.max_eq_left (le_highest p is)]

/-- The index of one placeholder, and of those that follow it. -/
theorem assign_cons (p : Int) (n? : Option Nat) (ns : List (Option Nat)) :
    assign p (n? :: ns) =
      (n?.elim (p + 1) Int.ofNat) :: assign (max p (n?.elim (p + 1) Int.ofNat)) ns := by
  cases n? <;> rfl

theorem assign_append (p : Int) (xs ys : List (Option Nat)) :
    assign p (xs ++ ys) = assign p xs ++ assign (highest p (assign p xs)) ys := by
  induction xs generalizing p with
  | nil => rfl
  | cons x xs ih => simp only [List.cons_append, assign_cons, highest_cons, ih]

/-- Written numbers do not depend on what comes before. -/
theorem assign_some (p : Int) (ns : List Nat) :
    assign p (ns.map some) = ns.map Int.ofNat := by
  induction ns generalizing p with
  | nil => rfl
  | cons n ns ih =>
    rw [List.map_cons, assign_cons, ih]
    rfl

/-! ## Numbers of texts after one another -/

theorem marks_append (xs ys : List Lexeme) : marks (xs ++ ys) = marks xs ++ marks ys :=
  List.filterMap_append

theorem numbers_eq_ok {s : List Char} {ns : List (Option Nat)} :
    numbers s = .ok ns ↔
      (∀ digits ∈ marks (lex s), digits.length ≤ digitLimit) ∧ (marks (lex s)).map number? = ns := by
  simp only [numbers]
  cases hf : (marks (lex s)).find? fun digits => digitLimit < digits.length with
  | some digits =>
    have hmem := List.mem_of_find?_eq_some hf
    have hlong := List.find?_some hf
    simp only [decide_eq_true_eq] at hlong
    simp only [reduceCtorEq, false_iff, not_and]
    intro h
    exact absurd (h digits hmem) (by omega)
  | none =>
    rw [List.find?_eq_none] at hf
    simp only [decide_eq_true_eq, Nat.not_lt] at hf
    simp only [Except.ok.injEq, iff_and_self]
    exact fun _ => hf

theorem resolve_eq_ok {s : String} {p : Int} {is : List Int} :
    resolve s p = .ok is ↔ ∃ ns, numbers s.toList = .ok ns ∧ assign p ns = is := by
  rw [resolve, bind_eq_ok]
  simp only [pure_eq_ok]

theorem highestIndex_eq_ok {s : String} {p q : Int} :
    highestIndex s p = .ok q ↔ ∃ is, resolve s p = .ok is ∧ highest p is = q := by
  rw [highestIndex, bind_eq_ok]
  simp only [pure_eq_ok]

/-! ## Reading a text after others -/

/-- After the largest index `p` the placeholders of the text take the indexes `is`, and the text
leaves no literal open. -/
structure Reads (p : Int) (s : String) (is : List Int) : Prop where
  balanced : Balanced s.toList
  resolved : resolve s p = .ok is

/-- The same of a text that begins inside or outside a literal and ends outside. -/
structure ReadsFrom (inside : Bool) (p : Int) (s : List Char) (is : List Int) : Prop where
  parity : s.count quote % 2 = inside.toNat
  short : ∀ digits ∈ marks (lexFrom inside s), digits.length ≤ digitLimit
  resolved : assign p ((marks (lexFrom inside s)).map number?) = is

/-- No digit that begins the text can continue a placeholder before it. -/
def Led (s : String) : Prop := ∀ c ∈ s.toList.head?, isDigit c = false

/-- No literal is left open, and there is no placeholder. -/
structure Plain (s : String) : Prop where
  balanced : Balanced s.toList
  unmarked : scan s = .ok []

theorem Reads.highestIndex {p : Int} {s : String} {is : List Int} (h : Reads p s is) :
    highestIndex s p = .ok (highest p is) :=
  highestIndex_eq_ok.2 ⟨is, h.resolved, rfl⟩

theorem reads_iff {p : Int} {s : String} {is : List Int} :
    Reads p s is ↔ ReadsFrom false p s.toList is := by
  constructor
  · rintro ⟨hb, hr⟩
    obtain ⟨ns, hns, hassign⟩ := resolve_eq_ok.1 hr
    obtain ⟨hshort, rfl⟩ := numbers_eq_ok.1 hns
    exact ⟨hb, hshort, hassign⟩
  · rintro ⟨hb, hshort, hassign⟩
    exact ⟨hb, resolve_eq_ok.2 ⟨_, numbers_eq_ok.2 ⟨hshort, rfl⟩, hassign⟩⟩

theorem ReadsFrom.append {inside : Bool} {p : Int} {a b : List Char} {is js : List Int}
    (ha : ReadsFrom inside p a is) (hb : ReadsFrom false (highest p is) b js)
    (hc : ¬ Continues a b) : ReadsFrom inside p (a ++ b) (is ++ js) := by
  have hlex := lexFrom_append inside a b ha.parity hc
  have hparity := ha.parity
  have hbalanced := hb.parity
  constructor
  · rw [List.count_append]
    simp only [Bool.toNat_false] at hbalanced
    omega
  · intro digits hd
    rw [hlex, marks_append, List.mem_append] at hd
    exact hd.elim (ha.short digits) (hb.short digits)
  · rw [hlex, marks_append, List.map_append, assign_append, ha.resolved, hb.resolved]

theorem Reads.append {p : Int} {a b : String} {is js : List Int} (ha : Reads p a is)
    (hb : Reads (highest p is) b js) (hc : ¬ Continues a.toList b.toList) :
    Reads p (a ++ b) (is ++ js) := by
  rw [reads_iff] at ha hb ⊢
  rw [String.toList_append]
  exact ha.append hb hc

theorem readsFrom_mark (p : Int) : ReadsFrom false p ['?'] [p + 1] where
  parity := by decide
  short := by
    intro digits hd
    rw [show marks (lexFrom false ['?']) = [[]] from rfl, List.mem_singleton] at hd
    rw [hd]
    exact Nat.zero_le _
  resolved := rfl

/-- Behind a quote the text is read from the other side. -/
theorem ReadsFrom.cons_quote {inside : Bool} {p : Int} {s : List Char} {is : List Int}
    (h : ReadsFrom (!inside) p s is) : ReadsFrom inside p (quote :: s) is := by
  have hparity : (s.count quote + 1) % 2 = inside.toNat := by
    have := h.parity
    cases inside
    · simp only [Bool.not_false, Bool.toNat_true] at this
      simp only [Bool.toNat_false]
      omega
    · simp only [Bool.not_true, Bool.toNat_false] at this
      simp only [Bool.toNat_true]
      omega
  have hlex : marks (lexFrom inside (quote :: s)) = marks (lexFrom (!inside) s) := by
    rw [lexFrom_quote, opens_of_parity hparity]
    rfl
  refine ⟨?_, ?_, ?_⟩
  · rw [List.count_cons_self]
    exact hparity
  · rw [hlex]
    exact h.short
  · rw [hlex]
    exact h.resolved

theorem ReadsFrom.cons_plain {inside : Bool} {p : Int} {s : List Char} {is : List Int} {c : Char}
    (hq : c ≠ quote) (hm : c = '?' → inside = true) (h : ReadsFrom inside p s is) :
    ReadsFrom inside p (c :: s) is := by
  have hlex : marks (lexFrom inside (c :: s)) = marks (lexFrom inside s) := by
    rw [lexFrom_plain s hq hm]
    rfl
  refine ⟨?_, ?_, ?_⟩
  · rw [List.count_cons_of_ne hq]
    exact h.parity
  · rw [hlex]
    exact h.short
  · rw [hlex]
    exact h.resolved

theorem Led.not_continues {a : List Char} {b : String} (h : Led b) : ¬ Continues a b.toList := by
  rintro ⟨_, c, hc, hd⟩
  rw [h c hc] at hd
  cases hd

theorem Led.append {a b : String} (ha : Led a) (hb : Led b) : Led (a ++ b) := by
  unfold Led at *
  rw [String.toList_append]
  cases h : a.toList with
  | nil => exact hb
  | cons c rest =>
    intro d hd
    exact ha d (by rw [h]; exact hd)

/-- A text that begins with a character that is no digit. -/
theorem Led.of_head {a : String} {c : Char} (hc : a.toList.head? = some c)
    (hd : isDigit c = false) (b : String) : Led (a ++ b) := by
  intro d h
  rw [String.toList_append, List.head?_append, hc, Option.some_or] at h
  cases h
  exact hd

theorem Reads.append_led {p : Int} {a b : String} {is js : List Int} (ha : Reads p a is)
    (hb : Reads (highest p is) b js) (hl : Led b) : Reads p (a ++ b) (is ++ js) :=
  ha.append hb hl.not_continues

/-! ## Texts without placeholders -/

theorem tokensFrom_eq_nil_iff {position : Nat} {ls : List Lexeme} :
    tokensFrom position ls = [] ↔ marks ls = [] := by
  induction ls generalizing position with
  | nil => simp [tokensFrom, marks]
  | cons l rest ih =>
    cases l with
    | plain c => exact ih
    | mark digits => simp [tokensFrom, marks]

theorem scan_eq_nil_iff {s : String} : scan s = .ok [] ↔ marks (lex s.toList) = [] := by
  rw [scan, bind_eq_ok]
  simp only [pure_eq_ok, tokensFrom_eq_nil_iff]
  refine ⟨fun ⟨_, _, h⟩ => h, fun h => ⟨[], numbers_eq_ok.2 ?_, h⟩⟩
  rw [h]
  exact ⟨fun _ hd => absurd hd List.not_mem_nil, rfl⟩

theorem Plain.reads {s : String} (h : Plain s) (p : Int) : Reads p s [] := by
  refine ⟨h.balanced, resolve_eq_ok.2 ⟨[], numbers_eq_ok.2 ?_, rfl⟩⟩
  rw [scan_eq_nil_iff.1 h.unmarked]
  exact ⟨fun _ hd => absurd hd List.not_mem_nil, rfl⟩

/-- A text that leaves no literal open and ends in a placeholder's digits holds that
placeholder. -/
theorem marks_ne_nil_of_end {front digits : List Char} (hd : ∀ c ∈ digits, isDigit c = true)
    (hb : Balanced (front ++ '?' :: digits)) : marks (lex (front ++ '?' :: digits)) ≠ [] := by
  rw [lex_mark (hb.of_mark hd), marks_append]
  simp [marks]

theorem Plain.not_continues {a : String} (h : Plain a) (b : List Char) :
    ¬ Continues a.toList b := by
  rintro ⟨⟨front, digits, ha, hd⟩, _⟩
  have hb := h.balanced
  have hm := scan_eq_nil_iff.1 h.unmarked
  rw [ha] at hb hm
  exact marks_ne_nil_of_end hd hb hm

theorem Plain.append {a b : String} (ha : Plain a) (hb : Plain b) : Plain (a ++ b) := by
  constructor
  · rw [String.toList_append]
    exact ha.balanced.append hb.balanced
  · rw [scan_eq_nil_iff, String.toList_append, lex_append ha.balanced (ha.not_continues _),
      marks_append, scan_eq_nil_iff.1 ha.unmarked, scan_eq_nil_iff.1 hb.unmarked]
    rfl

theorem Plain.append_reads {p : Int} {a b : String} {is : List Int} (ha : Plain a)
    (hb : Reads p b is) : Reads p (a ++ b) is :=
  (ha.reads p).append hb (ha.not_continues _)

theorem Reads.append_plain {p : Int} {a b : String} {is : List Int} (ha : Reads p a is)
    (hb : Plain b) (hl : Led b) : Reads p (a ++ b) is := by
  have := ha.append_led (hb.reads _) hl
  rwa [List.append_nil] at this

/-- Two texts with a plain one between them that begins with no digit. -/
theorem Reads.append_between {p : Int} {a b s : String} {is js : List Int} {c : Char}
    (ha : Reads p a is) (hb : Plain b) (hc : b.toList.head? = some c) (hd : isDigit c = false)
    (hs : Reads (highest p is) s js) : Reads p (a ++ b ++ s) (is ++ js) := by
  rw [String.append_assoc]
  exact ha.append_led (hb.append_reads hs) (Led.of_head hc hd s)

theorem marks_lexFrom_of_not_mem {inside : Bool} {s : List Char} (h : '?' ∉ s) :
    marks (lexFrom inside s) = [] := by
  induction inside, s using lexFrom_induction with
  | nil inside => rfl
  | quote inside rest ih =>
    rw [lexFrom_quote]
    exact ih fun hm => h (List.mem_cons_of_mem _ hm)
  | mark rest ih => exact absurd List.mem_cons_self h
  | plain inside c rest hq hm ih =>
    rw [lexFrom_plain rest hq hm]
    exact ih fun hm => h (List.mem_cons_of_mem _ hm)

/-- A text with neither quote nor question mark is plain. -/
theorem plain_of_not_mem {s : String} (hq : quote ∉ s.toList) (hm : '?' ∉ s.toList) : Plain s := by
  refine ⟨?_, scan_eq_nil_iff.2 (marks_lexFrom_of_not_mem hm)⟩
  unfold Balanced
  rw [List.count_eq_zero.2 hq]

/-- A text in parentheses. -/
theorem Reads.parens {p : Int} {sql : String} {is : List Int} (h : Reads p sql is) :
    Reads p ("(" ++ sql ++ ")") is := by
  have hleft : Plain "(" := plain_of_not_mem (by decide) (by decide)
  have hright : Plain ")" := plain_of_not_mem (by decide) (by decide)
  have hled : Led (")" ++ "") := Led.of_head (c := ')') rfl (by decide) ""
  rw [String.append_empty] at hled
  exact (hleft.append_reads h).append_plain hright hled

/-! ## Lists of texts -/

/-- Each text of a list is read after the texts before it. -/
inductive Chain : Int → List String → List Int → Prop where
  | nil (p : Int) : Chain p [] []
  | cons {p : Int} {s : String} {is : List Int} {texts : List String} {js : List Int} :
    Reads p s is → Chain (highest p is) texts js → Chain p (s :: texts) (is ++ js)

/-- Texts joined by a plain separator that begins with no digit are read like the list. -/
theorem Chain.intercalate {sep : String} (hp : Plain sep) {c : Char}
    (hc : sep.toList.head? = some c) (hd : isDigit c = false) {p : Int} {texts : List String}
    {is : List Int} (h : Chain p texts is) : Reads p (sep.intercalate texts) is := by
  induction h with
  | nil p =>
    rw [String.intercalate_nil]
    exact (plain_of_not_mem (by simp) (by simp)).reads p
  | @cons p s is texts js hs hrest ih =>
    cases texts with
    | nil =>
      cases hrest
      rw [String.intercalate_singleton, List.append_nil]
      exact hs
    | cons t texts =>
      rw [String.intercalate_cons_cons]
      exact hs.append_between hp hc hd ih

end Querywright.Placeholder
