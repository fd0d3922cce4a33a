/-
  The placeholders of two texts, the one directly after the other. The first text leaves no literal
  open.

  * `Token.after`: a placeholder once other text stands before it.
  * `tokensFrom_append`, `numbers_append`: what is found in both texts, and what is told when a
    placeholder of one has too many digits.
  * `scan_append_iff`: the whole text holds the placeholders of its two parts unless digits of the
    second go on with the last placeholder of the first.
  * `numbering_composes`: then the second text is numbered after the largest index of the first.
-/
import Querywright.Proofs.Placeholder.Numbering

namespace Querywright.Placeholder

open Text

/-! ## Places and numbers -/

/-- The placeholder, with `n` characters before its text. -/
def Token.after (n : Nat) (t : Token) : Token := ⟨n + t.start, n + t.stop, t.number⟩

theorem tokensFrom_add (n position : Nat) (ls : List Lexeme) :
    tokensFrom (n + position) ls = (tokensFrom position ls).map (Token.after n) := by
  induction ls generalizing position with
  | nil => rfl
  | cons l rest ih =>
    cases l with
    | plain c => exact ih (position + 1)
    | mark digits =>
      have h := ih (position + 1 + digits.length)
      simp only [← Nat.add_assoc] at h
      simp only [tokensFrom, List.map_cons, Token.after, h, ← Nat.add_assoc]

theorem tokensFrom_append (position : Nat) (xs ys : List Lexeme) :
    tokensFrom position (xs ++ ys) =
      tokensFrom position xs ++ tokensFrom (position + (unlex xs).length) ys := by
  induction xs generalizing position with
  | nil => rfl
  | cons x xs ih =>
    cases x with
    | plain c =>
      have hlength : position + (unlex (.plain c :: xs)).length
          = position + 1 + (unlex xs).length := by
        simp only [unlex_cons, Lexeme.text, List.length_append, List.length_singleton]
        omega
      rw [hlength]
      exact ih (position + 1)
    | mark digits =>
      have hlength : position + (unlex (.mark digits :: xs)).length
          = position + 1 + digits.length + (unlex xs).length := by
        simp only [unlex_cons, Lexeme.text, List.length_append, List.length_cons]
        omega
      simp only [List.cons_append, tokensFrom, ih, hlength]

theorem tokensFrom_lex_append {a b : List Char} (ha : Balanced a) (hc : ¬ Continues a b) :
    tokensFrom 0 (lex (a ++ b)) =
      tokensFrom 0 (lex a) ++ (tokensFrom 0 (lex b)).map (Token.after a.length) := by
  rw [lex_append ha hc, tokensFrom_append, unlex_lex, Nat.zero_add, ← tokensFrom_add,
    Nat.add_zero]

/-- Of two placeholders with too many digits the first is told. -/
theorem numbers_append {a b : List Char} (ha : Balanced a) (hc : ¬ Continues a b) :
    numbers (a ++ b) = do return (← numbers a) ++ (← numbers b) := by
  simp only [numbers, lex_append ha hc, marks_append, List.find?_append, List.map_append]
  cases (marks (lex a)).find? fun digits => digitLimit < digits.length with
  | some digits => rfl
  | none =>
    cases (marks (lex b)).find? fun digits => digitLimit < digits.length with
    | some digits => rfl
    | none => rfl

/-! ## Scanning -/

theorem scan_append {a b : String} (ha : Balanced a.toList)
    (hc : ¬ Continues a.toList b.toList) :
    scan (a ++ b) = do
      let tokens ← scan a
      let more ← scan b
      return tokens ++ more.map (Token.after a.length) := by
  unfold scan
  rw [String.toList_append, numbers_append ha hc, tokensFrom_lex_append ha hc,
    String.length_toList]
  cases numbers a.toList with
  | error e => rfl
  | ok ns => cases numbers b.toList <;> rfl

/-- Digits that go on with the last placeholder of a text move its end. -/
theorem scan_append_ne {a b : String} {tokens : List Token} (ha : Balanced a.toList)
    (hc : Continues a.toList b.toList) (hscan : scan a = .ok tokens) (more : List Token) :
    scan (a ++ b) ≠ .ok (tokens ++ more) := by
  obtain ⟨⟨front, digits, htext, hd⟩, c, hhead, hdigit⟩ := hc
  have hfront : Balanced front := .of_mark hd (htext ▸ ha)
  obtain ⟨rest, hb⟩ := List.head?_eq_some_iff.1 hhead
  have htake : (digits ++ b.toList).takeWhile isDigit = digits ++ c :: rest.takeWhile isDigit := by
    rw [List.takeWhile_append_of_pos hd, hb, List.takeWhile_cons_of_pos hdigit]
  have hlast := @takeWhile_digits digits [] hd nofun
  rw [List.append_nil] at hlast
  intro hwhole
  rw [scan, bind_eq_ok] at hscan hwhole
  simp only [pure_eq_ok, String.toList_append, htext, List.append_assoc, List.cons_append,
    lex_mark hfront, hlast, htake, tokensFrom_append, tokensFrom] at hscan hwhole
  obtain ⟨-, -, rfl⟩ := hscan
  obtain ⟨-, -, hsame⟩ := hwhole
  rw [List.append_assoc, List.cons_append] at hsame
  have hstop := congrArg Token.stop (List.head_eq_of_cons_eq (List.append_cancel_left hsame))
  simp only [List.length_append, List.length_cons] at hstop
  omega

/-- Where both texts are scanned, the placeholders of the whole are those of its two parts exactly
when no digit of the second part goes on with the last placeholder of the first. -/
theorem scan_append_iff {a b : String} {tokens more : List Token} (ha : Balanced a.toList)
    (hscan : scan a = .ok tokens) (hmore : scan b = .ok more) :
    scan (a ++ b) = .ok (tokens ++ more.map (Token.after a.length)) ↔
      ¬ Continues a.toList b.toList := by
  constructor
  · intro hwhole hc
    exact scan_append_ne ha hc hscan _ hwhole
  · intro hc
    rw [scan_append ha hc, hscan, hmore]
    rfl

/-! ## Indexes -/

theorem resolve_append {a b : String} (ha : Balanced a.toList)
    (hc : ¬ Continues a.toList b.toList) (start : Int) :
    resolve (a ++ b) start = do
      let indexes ← resolve a start
      return indexes ++ (← resolve b (highest start indexes)) := by
  unfold resolve
  rw [String.toList_append, numbers_append ha hc]
  cases numbers a.toList with
  | error e => rfl
  | ok ns =>
    cases numbers b.toList with
    | error e => rfl
    | ok ms =>
      show Except.ok (assign start (ns ++ ms)) = _
      rw [assign_append]
      rfl

theorem highestIndex_append {a b : String} (ha : Balanced a.toList)
    (hc : ¬ Continues a.toList b.toList) (start : Int) :
    highestIndex (a ++ b) start = highestIndex a start >>= highestIndex b := by
  unfold highestIndex
  rw [resolve_append ha hc]
  cases resolve a start with
  | error e => rfl
  | ok is =>
    simp only [ok_bind, pure_bind]
    cases resolve b (highest start is) with
    | error e => rfl
    | ok js =>
      show Except.ok (highest start (is ++ js)) = _
      rw [highest_append]
      rfl

/-- A text that leaves no literal open, and a text directly behind it whose digits do not go on
with its last placeholder: the placeholders of both are those of the first, and behind them those
of the second, as many characters further on. The indexes are numbered on from the largest index of
the first text, whatever came before it, and so is the largest index of both. A placeholder with
too many digits is told as when the two are read one after the other. A literal that ends the first
text may meet one that begins the second. -/
theorem numbering_composes {a b : String} (ha : Balanced a.toList)
    (hc : ¬ Continues a.toList b.toList) :
    (scan (a ++ b) = do
      let tokens ← scan a
      let more ← scan b
      return tokens ++ more.map (Token.after a.length)) ∧
    ∀ start : Int,
      (resolve (a ++ b) start = do
        let indexes ← resolve a start
        let largest ← highestIndex a start
        let more ← resolve b largest
        return indexes ++ more) ∧
      highestIndex (a ++ b) start = highestIndex a start >>= highestIndex b := by
  refine ⟨scan_append ha hc, fun start => ⟨?_, highestIndex_append ha hc start⟩⟩
  rw [resolve_append ha hc, highestIndex]
  cases resolve a start <;> rfl

/-- A literal that ends the first text meets one that begins the second, and the last literal is
never closed. -/
theorem numbering_composes_literals :
    Balanced "a = ?4 AND b = 'it''s ?'".toList ∧
      ¬ Continues "a = ?4 AND b = 'it''s ?'".toList "'?' AND c = ? OR d = ?2 AND e = '?".toList ∧
      scan ("a = ?4 AND b = 'it''s ?'" ++ "'?' AND c = ? OR d = ?2 AND e = '?") =
        .ok [⟨4, 6, some 4⟩, ⟨36, 37, none⟩, ⟨45, 47, some 2⟩, ⟨57, 58, none⟩] ∧
      resolve ("a = ?4 AND b = 'it''s ?'" ++ "'?' AND c = ? OR d = ?2 AND e = '?") 1 =
        .ok [4, 5, 2, 6] ∧
      highestIndex ("a = ?4 AND b = 'it''s ?'" ++ "'?' AND c = ? OR d = ?2 AND e = '?") 1 =
        .ok 6 := by
  have ha : Balanced "a = ?4 AND b = 'it''s ?'".toList := by decide
  have hb : Led "'?' AND c = ? OR d = ?2 AND e = '?" := by
    intro c hc
    cases hc
    exact isDigit_quote
  obtain ⟨hscan, hindexes⟩ := numbering_composes ha hb.not_continues
  obtain ⟨hresolve, hhighest⟩ := hindexes 1
  refine ⟨ha, hb.not_continues, ?_, ?_, ?_⟩
  · rw [hscan]
    rfl
  · rw [hresolve]
    rfl
  · rw [hhighest]
    rfl

end Querywright.Placeholder
