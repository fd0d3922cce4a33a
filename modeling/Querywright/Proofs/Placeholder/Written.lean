/-
  Indexes written out.

  * `reads_written`: `?n` is read as the index `n`, wherever it stands.
  * `WrittenOut`: a text with other digits at its placeholders, which write the indexes that they
    bind to. `numberBare_eq_ok`: that is what `numberBare` makes of a text.
  * `Reads.numberBare`: a text whose indexes have been written out binds what it bound before,
    now after any number of arguments.
-/
import Querywright.Proofs.Placeholder.Numbering

namespace Querywright.Placeholder

open Text

/-! ## Decimal digits -/

theorem digitValue?_of_isDigit {c : Char} (h : c.isDigit = true) :
    digitValue? c = some (c.toNat - '0'.toNat) := by
  have hrange : 48 ≤ c.toNat ∧ c.toNat ≤ 57 := by
    simpa [Char.isDigit, UInt32.le_iff_toNat_le] using h
  have hzero : (decide (0x30 ≤ c.toNat) && decide (c.toNat < 0x30 + 10)) = true := by
    rw [Bool.and_eq_true, decide_eq_true_eq, decide_eq_true_eq]
    omega
  have hfind : digitZeros.find? (fun z => z ≤ c.toNat && c.toNat < z + 10) = some 0x30 :=
    List.find?_cons_of_pos (p := fun z => z ≤ c.toNat && c.toNat < z + 10) hzero
  rw [digitValue?, hfind]
  rfl

theorem isDigit_of_isDigit {c : Char} (h : c.isDigit = true) : isDigit c = true := by
  rw [isDigit, digitValue?_of_isDigit h]
  rfl

theorem digitsValue_toDigits (n : Nat) : digitsValue (Nat.toDigits 10 n) = n := by
  have hfold : ∀ (ds : List Char) (m : Nat), (∀ c ∈ ds, c.isDigit = true) →
      ds.foldl (fun n c => 10 * n + (digitValue? c).getD 0) m = Nat.ofDigitChars 10 ds m := by
    intro ds
    induction ds with
    | nil => intro m _; rfl
    | cons d ds ih =>
      intro m hd
      rw [List.foldl_cons, digitValue?_of_isDigit (hd d List.mem_cons_self),
        Nat.ofDigitChars_cons, ih _ fun c hc => hd c (List.mem_cons_of_mem _ hc)]
      rfl
  rw [digitsValue, hfold _ _ fun c hc => Nat.isDigit_of_mem_toDigits (by decide) (by decide) hc]
  exact Nat.ofDigitChars_ten_toDigits

/-- The digits that write a number. -/
def numeral (n : Nat) : List Char := Nat.toDigits 10 n

theorem isDigit_of_mem_numeral {n : Nat} {c : Char} (h : c ∈ numeral n) : isDigit c = true :=
  isDigit_of_isDigit (Nat.isDigit_of_mem_toDigits (by decide) (by decide) h)

theorem number?_numeral (n : Nat) : number? (numeral n) = some n := by
  have hne : (numeral n).isEmpty = false := by
    rw [List.isEmpty_eq_false_iff]
    exact Nat.toDigits_ne_nil
  rw [number?, hne]
  simp [numeral, digitsValue_toDigits]

theorem toList_toString (n : Nat) : (toString (n : Int)).toList = numeral n := by
  rw [Int.toString_eq_repr, Int.repr_eq_if, if_pos (Int.natCast_nonneg n), Int.toNat_natCast,
    Nat.toList_repr]
  rfl

theorem length_numeral_le {n : Nat} (h : tooLong n = false) : (numeral n).length ≤ digitLimit := by
  rw [tooLong, Int.natAbs_natCast, decide_eq_false_iff_not, Nat.not_lt] at h
  exact h

/-! ## A written index -/

theorem lex_marked {digits : List Char} (hd : ∀ c ∈ digits, isDigit c = true) :
    lex ('?' :: digits) = [.mark digits] := by
  have h := @takeWhile_digits digits [] hd (by simp)
  rw [List.append_nil] at h
  rw [lex, lexFrom_mark, h.1, h.2]
  rfl

/-- A placeholder's own number is its index. -/
theorem reads_written {n : Nat} (h : tooLong n = false) (p : Int) :
    Reads p ("?" ++ toString (n : Int)) [(n : Int)] := by
  have htext : ("?" ++ toString (n : Int)).toList = '?' :: numeral n := by
    rw [String.toList_append, toList_toString]
    rfl
  have hd : ∀ c ∈ numeral n, isDigit c = true := fun c hc => isDigit_of_mem_numeral hc
  refine ⟨?_, resolve_eq_ok.2 ⟨[some n], numbers_eq_ok.2 ?_, assign_some p [n]⟩⟩
  · rw [htext, Balanced, List.count_cons_of_ne (by decide), count_quote_digits hd]
  · rw [htext, lex_marked hd]
    refine ⟨fun digits hm => ?_, by simp [marks, number?_numeral]⟩
    rw [List.mem_singleton.1 hm]
    exact length_numeral_le h

/-! ## Placeholders with other digits -/

/-- The lexemes with the placeholders' digits replaced. -/
def relabel : List Lexeme → List (List Char) → List Lexeme
  | [], _ => []
  | .plain c :: rest, ds => .plain c :: relabel rest ds
  | .mark digits :: rest, [] => .mark digits :: relabel rest []
  | .mark _ :: rest, d :: ds => .mark d :: relabel rest ds

theorem relabel_plain (c : Char) (rest : List Lexeme) (ds : List (List Char)) :
    relabel (.plain c :: rest) ds = .plain c :: relabel rest ds := rfl

theorem relabel_mark_nil (digits : List Char) (rest : List Lexeme) :
    relabel (.mark digits :: rest) [] = .mark digits :: relabel rest [] := rfl

theorem relabel_mark (digits d : List Char) (rest : List Lexeme) (ds : List (List Char)) :
    relabel (.mark digits :: rest) (d :: ds) = .mark d :: relabel rest ds := rfl

theorem fill_marks (ls : List Lexeme) (ds : List (List Char)) :
    fill ls (ds.map ('?' :: ·)) = unlex (relabel ls ds) := by
  induction ls generalizing ds with
  | nil => rfl
  | cons l rest ih =>
    cases l with
    | plain c =>
      rw [fill, relabel_plain, ih]
      rfl
    | mark digits =>
      cases ds with
      | nil =>
        have := ih []
        rw [List.map_nil] at this ⊢
        rw [fill, relabel_mark_nil, this]
        rfl
      | cons d ds =>
        rw [List.map_cons, fill, relabel_mark, ih]
        rfl

theorem head?_unlex_relabel (ls : List Lexeme) (ds : List (List Char)) :
    (unlex (relabel ls ds)).head? = (unlex ls).head? := by
  cases ls with
  | nil => rfl
  | cons l rest =>
    cases l with
    | plain c => rfl
    | mark digits => cases ds <;> rfl

theorem marks_relabel {ls : List Lexeme} {ds : List (List Char)}
    (h : ds.length = (marks ls).length) : marks (relabel ls ds) = ds := by
  induction ls generalizing ds with
  | nil => exact (List.eq_nil_of_length_eq_zero h).symm
  | cons l rest ih =>
    cases l with
    | plain c => exact ih h
    | mark digits =>
      cases ds with
      | nil => simp [marks] at h
      | cons d ds =>
        have hrest : ds.length = (marks rest).length := by simpa [marks] using h
        have := ih hrest
        simp only [marks] at this
        simp [relabel_mark, marks, this]

theorem count_quote_relabel {inside : Bool} {ls : List Lexeme} {ds : List (List Char)}
    (h : Lexed inside ls) (hd : ∀ d ∈ ds, ∀ c ∈ d, isDigit c = true) :
    (unlex (relabel ls ds)).count quote = (unlex ls).count quote := by
  induction ls generalizing inside ds with
  | nil => rfl
  | cons l rest ih =>
    cases l with
    | plain c =>
      obtain ⟨i, hi⟩ := h.tail
      rw [relabel_plain, unlex_cons, unlex_cons, List.count_append, List.count_append, ih hi hd]
    | mark digits =>
      obtain ⟨-, hdigits, -, hrest⟩ := h
      cases ds with
      | nil =>
        rw [relabel_mark_nil, unlex_cons, unlex_cons, List.count_append, List.count_append,
          ih hrest hd]
      | cons d ds =>
        rw [relabel_mark, unlex_cons, unlex_cons, List.count_append, List.count_append,
          ih hrest fun e he => hd e (List.mem_cons_of_mem _ he), count_quote_mark hdigits,
          count_quote_mark (hd d List.mem_cons_self)]

/-- Whether a quote opens a literal depends only on how many quotes follow. -/
theorem opens_congr {inside : Bool} {a b : List Char} (h : a.count quote = b.count quote) :
    opens inside a = opens inside b := by
  have hmem : a.contains quote = b.contains quote := by
    rw [Bool.eq_iff_iff, List.contains_iff_mem, List.contains_iff_mem, ← List.count_pos_iff,
      ← List.count_pos_iff, h]
  rw [opens, opens, hmem]

theorem lexed_relabel {inside : Bool} {ls : List Lexeme} {ds : List (List Char)}
    (h : Lexed inside ls) (hd : ∀ d ∈ ds, ∀ c ∈ d, isDigit c = true) :
    Lexed inside (relabel ls ds) := by
  induction ls generalizing inside ds with
  | nil => trivial
  | cons l rest ih =>
    cases l with
    | plain c =>
      rw [relabel_plain]
      rw [lexed_plain] at h ⊢
      by_cases hq : c = quote
      · rw [if_pos hq] at h ⊢
        rw [opens_congr (count_quote_relabel h hd)]
        exact ih h hd
      · rw [if_neg hq] at h ⊢
        exact ⟨h.1, ih h.2 hd⟩
    | mark digits =>
      obtain ⟨rfl, hdigits, hhead, hrest⟩ := h
      cases ds with
      | nil =>
        rw [relabel_mark_nil, lexed_mark, head?_unlex_relabel]
        exact ⟨rfl, hdigits, hhead, ih hrest hd⟩
      | cons d ds =>
        rw [relabel_mark, lexed_mark, head?_unlex_relabel]
        exact ⟨rfl, hd d List.mem_cons_self, hhead,
          ih hrest fun e he => hd e (List.mem_cons_of_mem _ he)⟩

/-- Placeholders hold digits only. -/
theorem isDigit_of_mem_marks {inside : Bool} {ls : List Lexeme} (h : Lexed inside ls)
    {digits : List Char} (hd : digits ∈ marks ls) {c : Char} (hc : c ∈ digits) :
    isDigit c = true := by
  induction ls generalizing inside with
  | nil => cases hd
  | cons l rest ih =>
    cases l with
    | plain x =>
      obtain ⟨i, hi⟩ := h.tail
      exact ih hi hd
    | mark ds =>
      obtain ⟨-, hdigits, -, hrest⟩ := h
      rcases List.mem_cons.1 hd with rfl | hd
      · exact hdigits c hc
      · exact ih hrest hd

/-! ## Every index written out -/

theorem length_assign (p : Int) (ns : List (Option Nat)) : (assign p ns).length = ns.length := by
  induction ns generalizing p with
  | nil => rfl
  | cons n ns ih => simp only [assign_cons, List.length_cons, ih]

theorem assign_nonneg {p : Int} (hp : 0 ≤ p) (ns : List (Option Nat)) :
    ∀ i ∈ assign p ns, 0 ≤ i := by
  induction ns generalizing p with
  | nil => intro i hi; cases hi
  | cons n ns ih =>
    intro i hi
    simp only [assign_cons, List.mem_cons] at hi
    rcases hi with rfl | hi
    · cases n with
      | none => exact Int.add_nonneg hp (by decide)
      | some n => exact Int.natCast_nonneg n
    · exact ih (by omega) i hi

/-- Indexes that count arguments. -/
theorem exists_nat_of_nonneg {is : List Int} (h : ∀ i ∈ is, 0 ≤ i) :
    ∃ ns : List Nat, is = ns.map Int.ofNat := by
  refine ⟨is.map Int.toNat, ?_⟩
  rw [List.map_map]
  have hid : is.map (Int.ofNat ∘ Int.toNat) = is.map id :=
    List.map_congr_left fun i hi => Int.toNat_of_nonneg (h i hi)
  rw [hid, List.map_id]

/-- Writing the indexes gives their placeholders new digits. -/
theorem fill_indexed (ls : List Lexeme) (ns : List Nat) :
    fill ls ((ns.map Int.ofNat).map indexed) = unlex (relabel ls (ns.map numeral)) := by
  rw [← fill_marks, List.map_map, List.map_map]
  refine congrArg (fill ls) (List.map_congr_left fun n _ => ?_)
  exact congrArg ('?' :: ·) (toList_toString n)

theorem isDigit_numerals (ns : List Nat) : ∀ d ∈ ns.map numeral, ∀ c ∈ d, isDigit c = true := by
  intro d hd c hc
  obtain ⟨n, _, rfl⟩ := List.mem_map.1 hd
  exact isDigit_of_mem_numeral hc

/-- The numbers of a text once other digits stand at its placeholders. -/
theorem numbers_relabel {s : List Char} {ds : List (List Char)}
    (hlength : ds.length = (marks (lex s)).length) (hd : ∀ d ∈ ds, ∀ c ∈ d, isDigit c = true)
    (hshort : ∀ d ∈ ds, d.length ≤ digitLimit) :
    numbers (unlex (relabel (lex s) ds)) = .ok (ds.map number?) := by
  have hlex : lex (unlex (relabel (lex s) ds)) = relabel (lex s) ds :=
    lexFrom_unlex (lexed_relabel (lexed_lexFrom false s) hd)
  rw [numbers_eq_ok, hlex, marks_relabel hlength]
  exact ⟨hshort, rfl⟩

theorem balanced_relabel {s : List Char} (h : Balanced s) {ds : List (List Char)}
    (hd : ∀ d ∈ ds, ∀ c ∈ d, isDigit c = true) : Balanced (unlex (relabel (lex s) ds)) := by
  have hcount : (unlex (relabel (lex s) ds)).count quote = (unlex (lex s)).count quote :=
    count_quote_relabel (lexed_lexFrom false s) hd
  rw [Balanced, hcount, unlex_lex]
  exact h

theorem relabel_marks (ls : List Lexeme) : relabel ls (marks ls) = ls := by
  induction ls with
  | nil => rfl
  | cons l rest ih =>
    cases l with
    | plain c => exact congrArg (.plain c :: ·) ih
    | mark digits => exact congrArg (.mark digits :: ·) ih

theorem exists_nat_of_all_isSome {ns : List (Option Nat)} (h : ns.any Option.isNone = false) :
    ∃ ms : List Nat, ns = ms.map some := by
  refine ⟨ns.map (·.getD 0), ?_⟩
  rw [List.map_map]
  refine ((List.map_congr_left fun n hn => ?_).trans (List.map_id ns)).symm
  rw [List.any_eq_false] at h
  cases n with
  | none => exact absurd rfl (h none hn)
  | some n => rfl

/-- The second text has other digits at the placeholders of the first one: each writes the index
that the placeholder binds to. -/
structure WrittenOut (s t : String) (is : List Nat) (ds : List (List Char)) : Prop where
  resolved : resolve s 0 = .ok (is.map Int.ofNat)
  numbers : numbers t.toList = .ok (is.map some)
  length : ds.length = (marks (lex s.toList)).length
  digits : ∀ d ∈ ds, ∀ c ∈ d, isDigit c = true
  text : t.toList = unlex (relabel (lex s.toList) ds)

theorem numberBare_eq_ok {s t : String} (h : numberBare s = .ok t) :
    ∃ is ds, WrittenOut s t is ds := by
  rw [numberBare, bind_eq_ok] at h
  obtain ⟨ns, hns, h⟩ := h
  obtain ⟨hshort, hmarks⟩ := numbers_eq_ok.1 hns
  cases hbare : ns.any Option.isNone with
  | true =>
    rw [if_pos hbare] at h
    by_cases hlong : (assign 0 ns).any tooLong = true
    · rw [if_pos hlong] at h
      cases h
    · rw [if_neg hlong] at h
      cases h
      obtain ⟨is, his⟩ := exists_nat_of_nonneg (assign_nonneg (Int.le_refl 0) ns)
      have hlength : (is.map numeral).length = (marks (lex s.toList)).length := by
        have := congrArg List.length his
        rw [length_assign, List.length_map] at this
        rw [List.length_map, ← this, ← hmarks, List.length_map]
      have hwritable : ∀ d ∈ is.map numeral, d.length ≤ digitLimit := by
        refine List.forall_mem_map.2 fun n hn => length_numeral_le (Bool.eq_false_iff.2 fun hl => ?_)
        refine hlong (List.any_eq_true.2 ⟨n, ?_, hl⟩)
        rw [his]
        exact List.mem_map_of_mem hn
      have htext : (String.ofList (fill (lex s.toList) ((assign 0 ns).map indexed))).toList
          = unlex (relabel (lex s.toList) (is.map numeral)) := by
        rw [his, String.toList_ofList, fill_indexed]
      refine ⟨is, is.map numeral, resolve_eq_ok.2 ⟨ns, hns, his⟩, ?_, hlength, isDigit_numerals is,
        htext⟩
      rw [htext, numbers_relabel hlength (isDigit_numerals is) hwritable, List.map_map]
      exact congrArg Except.ok (List.map_congr_left fun n _ => number?_numeral n)
  | false =>
    rw [hbare] at h
    cases h
    obtain ⟨is, rfl⟩ := exists_nat_of_all_isSome hbare
    refine ⟨is, marks (lex s.toList), resolve_eq_ok.2 ⟨_, hns, assign_some 0 is⟩, hns, rfl, ?_, ?_⟩
    · exact fun d hd c hc => isDigit_of_mem_marks (lexed_lexFrom false s.toList) hd hc
    · rw [relabel_marks, unlex_lex]

/-- A text with every index written out binds, after any number of arguments, what it bound
before. -/
theorem WrittenOut.resolve {s t : String} {is : List Nat} {ds : List (List Char)}
    (h : WrittenOut s t is ds) (p : Int) : resolve t p = .ok (is.map Int.ofNat) :=
  resolve_eq_ok.2 ⟨_, h.numbers, assign_some p is⟩

theorem Reads.numberBare {s t : String} {is : List Int} (h : Reads 0 s is)
    (ht : numberBare s = .ok t) (p : Int) : Reads p t is := by
  obtain ⟨ms, ds, hwritten⟩ := numberBare_eq_ok ht
  cases h.resolved.symm.trans hwritten.resolved
  refine ⟨?_, hwritten.resolve p⟩
  rw [hwritten.text]
  exact balanced_relabel h.balanced hwritten.digits

end Querywright.Placeholder
