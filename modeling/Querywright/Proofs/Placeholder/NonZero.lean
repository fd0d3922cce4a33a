/-
  Texts without a placeholder that is numbered zero. Index zero names no argument: SQLite refuses
  it and a list read from it would give its last item.

  * `NonZero`: no placeholder of the text is numbered zero.
  * `one_le_resolve`: the indexes of such a text name arguments.
  * `nonZero_intercalate`: texts without a zero hold none once they are joined, where none leaves a
    literal open.
-/
import Querywright.Proofs.Placeholder.Written

namespace Querywright.Placeholder

open Text

/-- No placeholder of the text is numbered zero. -/
def NonZero (s : String) : Prop := ∀ t ∈ (scan s).toOption.getD [], t.number ≠ some 0

instance (s : String) : Decidable (NonZero s) :=
  inferInstanceAs (Decidable (∀ t ∈ (scan s).toOption.getD [], t.number ≠ some 0))

theorem number_tokensFrom (position : Nat) (ls : List Lexeme) :
    (tokensFrom position ls).map Token.number = (marks ls).map number? := by
  induction ls generalizing position with
  | nil => rfl
  | cons l rest ih =>
    cases l with
    | plain c => exact ih (position + 1)
    | mark digits =>
      have h := ih (position + 1 + digits.length)
      rw [tokensFrom, List.map_cons, h]
      rfl

theorem nonZero_iff {s : String} {ns : List (Option Nat)} (h : numbers s.toList = .ok ns) :
    NonZero s ↔ some 0 ∉ ns := by
  have hscan : scan s = .ok (tokensFrom 0 (lex s.toList)) := by
    rw [scan, h]
    rfl
  have hns : (tokensFrom 0 (lex s.toList)).map Token.number = ns := by
    rw [number_tokensFrom, (numbers_eq_ok.1 h).2]
  rw [NonZero, hscan, ← hns, List.mem_map]
  constructor
  · rintro hall ⟨t, ht, hzero⟩
    exact hall t ht hzero
  · intro hnone t ht hzero
    exact hnone ⟨t, ht, hzero⟩

/-- Without a zero every index names an argument. -/
theorem one_le_assign {p : Int} (hp : 0 ≤ p) {ns : List (Option Nat)} (h : some 0 ∉ ns) :
    ∀ i ∈ assign p ns, 1 ≤ i := by
  induction ns generalizing p with
  | nil =>
    intro i hi
    cases hi
  | cons n? ns ih =>
    have hrest : some 0 ∉ ns := fun hm => h (List.mem_cons_of_mem _ hm)
    intro i hi
    simp only [assign_cons, List.mem_cons] at hi
    rcases hi with rfl | hi
    · cases n? with
      | none =>
        show (1 : Int) ≤ p + 1
        omega
      | some n =>
        have hn : n ≠ 0 := by
          rintro rfl
          exact h List.mem_cons_self
        show (1 : Int) ≤ (n : Int)
        omega
    · exact ih (by omega) hrest i hi

theorem one_le_resolve {s : String} {p : Int} {is : List Int} (hp : 0 ≤ p) (hs : NonZero s)
    (h : resolve s p = .ok is) : ∀ i ∈ is, 1 ≤ i := by
  obtain ⟨ns, hns, rfl⟩ := resolve_eq_ok.1 h
  exact one_le_assign hp ((nonZero_iff hns).1 hs)

/-! ## Texts joined -/

/-- The placeholders of texts joined by a plain separator are those of the texts, one after
another. -/
theorem marks_intercalate {sep : String} (hp : Plain sep) {c : Char}
    (hc : sep.toList.head? = some c) (hd : isDigit c = false) {texts : List String}
    (hb : ∀ t ∈ texts, Balanced t.toList) :
    marks (lex (sep.intercalate texts).toList) = texts.flatMap fun t => marks (lex t.toList) := by
  induction texts with
  | nil =>
    rw [String.intercalate_nil]
    rfl
  | cons t texts ih =>
    obtain ⟨ht, hrest⟩ := List.forall_mem_cons.1 hb
    rw [List.flatMap_cons]
    cases texts with
    | nil => rw [String.intercalate_singleton, List.flatMap_nil, List.append_nil]
    | cons u texts =>
      have hled : Led (sep ++ sep.intercalate (u :: texts)) := Led.of_head hc hd _
      have hsep : marks (lex sep.toList) = [] := scan_eq_nil_iff.1 hp.unmarked
      rw [String.intercalate_cons_cons, String.append_assoc, String.toList_append,
        lex_append ht hled.not_continues, String.toList_append,
        lex_append hp.balanced (hp.not_continues _), marks_append, marks_append, hsep,
        List.nil_append, ih hrest]

theorem nonZero_intercalate {sep : String} (hp : Plain sep) {c : Char}
    (hc : sep.toList.head? = some c) (hd : isDigit c = false) {texts : List String}
    (hb : ∀ t ∈ texts, Balanced t.toList) (hz : ∀ t ∈ texts, NonZero t)
    {ns : List (Option Nat)} (h : numbers (sep.intercalate texts).toList = .ok ns) :
    NonZero (sep.intercalate texts) := by
  rw [nonZero_iff h]
  obtain ⟨hshort, rfl⟩ := numbers_eq_ok.1 h
  rw [marks_intercalate hp hc hd hb] at hshort ⊢
  intro hzero
  obtain ⟨digits, hdigits, hnumber⟩ := List.mem_map.1 hzero
  obtain ⟨t, ht, hmark⟩ := List.mem_flatMap.1 hdigits
  -- the text that holds the zero is scanned like the whole
  have hnumbers : numbers t.toList = .ok ((marks (lex t.toList)).map number?) := by
    refine numbers_eq_ok.2 ⟨fun ds hds => hshort ds ?_, rfl⟩
    exact List.mem_flatMap.2 ⟨t, ht, hds⟩
  exact (nonZero_iff hnumbers).1 (hz t ht) (List.mem_map.2 ⟨digits, hmark, hnumber⟩)

end Querywright.Placeholder
