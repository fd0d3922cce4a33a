/-
  Filters with every index written out. Such a filter keeps its indexes wherever its clause
  stands, so the values of a statement may be bound in another order than its text has.
-/
import Querywright.Proofs.Placeholder.Written
import Querywright.Proofs.Select.Fragments

namespace Querywright

open Placeholder

/-- The texts of a filter at every depth. -/
def Filter.texts (f : Filter) : List String := f.fragments ++ f.conditionTexts

/-- The conditions of a written filter, joined. -/
def FilterPiece.body (f : FilterPiece) : String := f.text.getD ""

theorem FilterPiece.numbered_eq_ok {f g : FilterPiece} (h : f.numbered = .ok g) :
    g.arguments = f.arguments ∧
      ((f.text = none ∧ g.text = none) ∨
        ∃ s t, f.text = some s ∧ g.text = some t ∧ numberBare s = .ok t) := by
  unfold FilterPiece.numbered at h
  cases htext : f.text with
  | none =>
    rw [htext] at h
    cases h
    exact ⟨rfl, .inl ⟨rfl, htext⟩⟩
  | some s =>
    simp only [htext, bind_eq_ok, pure_eq_ok] at h
    obtain ⟨t, ht, rfl⟩ := h
    exact ⟨rfl, .inr ⟨s, t, rfl, rfl, ht⟩⟩

/-- A clause with written indexes binds, after any values, what its conditions bind alone. -/
theorem Filter.numbered_reads {strict : Bool} {clause : String} {filter : Filter}
    {f g : FilterPiece} (hb : ∀ t ∈ filter.texts, Balanced t.toList)
    (h : filter.compile strict clause 0 = .ok f) (hg : f.numbered = .ok g) :
    ∃ is, resolve f.body 0 = .ok is ∧ highest 0 is = f.arguments.length ∧
      ∀ p, Reads p (g.clause "WHERE") is := by
  rw [Filter.texts, List.forall_mem_append] at hb
  obtain ⟨-, hnumbered⟩ := FilterPiece.numbered_eq_ok hg
  rcases Filter.compile_counts h with ⟨htext, harguments⟩ | ⟨s, htext, hcount⟩
  · rcases hnumbered with ⟨-, hnone⟩ | ⟨s, t, hs, -, -⟩
    · refine ⟨[], ?_, ?_, fun p => ?_⟩
      · rw [FilterPiece.body, htext]
        exact (plain_empty.reads 0).resolved
      · rw [harguments]
        rfl
      · rw [FilterPiece.clause, hnone]
        exact plain_empty.reads p
    · rw [htext] at hs
      cases hs
  · rcases hnumbered with ⟨hnone, -⟩ | ⟨s', t, hs', ht, hwritten⟩
    · rw [htext] at hnone
      cases hnone
    · cases htext.symm.trans hs'
      have hlead : Plain (" " ++ "WHERE" ++ " ") := plain_of_not_mem (by decide) (by decide)
      obtain ⟨is, hresolve, hreach⟩ := highestIndex_eq_ok.1 hcount
      have hreads : Reads 0 s is := ⟨inlinable_balanced.filter strict filter hb.1 hb.2 h s htext, hresolve⟩
      refine ⟨is, ?_, ?_, fun p => ?_⟩
      · rw [FilterPiece.body, htext]
        exact hresolve
      · rw [hreach, Int.zero_add]
      · rw [FilterPiece.clause, ht]
        exact hlead.append_reads (hreads.numberBare hwritten p)

end Querywright
