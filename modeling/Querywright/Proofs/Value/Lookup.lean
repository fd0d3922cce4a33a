/-
  What is under a name in a list of pairs.

  * `mem_of_lookup_eq`: what is found is there. `lookup_eq_of_mem`: where no name is repeated, what
    is there is found, and the order does not matter (`lookup_reverse`).
  * `lookup_zip`: a table may be read by other names for its places.
-/
import Mathlib.Data.List.Nodup

namespace Querywright

variable {α : Type} {k : String} {ps : List (String × α)}

theorem lookup_eq_of_mem {v : α} (h : (ps.map Prod.fst).Nodup) (hmem : (k, v) ∈ ps) :
    ps.lookup k = some v := by
  induction ps with
  | nil => cases hmem
  | cons p rest ih =>
    obtain ⟨hfresh, hrest⟩ := List.nodup_cons.1 h
    rw [List.lookup_cons]
    rcases List.mem_cons.1 hmem with rfl | hmem
    · rw [beq_self_eq_true]
    · have hne : k ≠ p.1 := by
        rintro rfl
        exact hfresh (List.mem_map.2 ⟨_, hmem, rfl⟩)
      rw [beq_false_of_ne hne]
      exact ih hrest hmem

theorem mem_of_lookup_eq {v : α} (h : ps.lookup k = some v) : (k, v) ∈ ps := by
  obtain ⟨before, after, rfl, -⟩ := List.lookup_eq_some_iff.1 h
  exact List.mem_append_right _ List.mem_cons_self

theorem lookup_reverse (h : (ps.map Prod.fst).Nodup) : ps.reverse.lookup k = ps.lookup k := by
  have h' : (ps.reverse.map Prod.fst).Nodup := by
    rw [List.map_reverse]
    exact List.nodup_reverse.2 h
  refine Option.ext fun v => ⟨fun hv => ?_, fun hv => ?_⟩
  · exact lookup_eq_of_mem h (List.mem_reverse.1 (mem_of_lookup_eq hv))
  · exact lookup_eq_of_mem h' (List.mem_reverse.2 (mem_of_lookup_eq hv))

theorem lookup_filter (keep : String → Bool) :
    (ps.filter fun p => keep p.1).lookup k = if keep k then ps.lookup k else none := by
  induction ps with
  | nil => exact (ite_self _).symm
  | cons p rest ih =>
    rw [List.filter_cons, List.lookup_cons]
    by_cases hk : k = p.1
    · subst hk
      rw [beq_self_eq_true]
      split
      · rw [List.lookup_cons, beq_self_eq_true]
      · rename_i hkeep
        rw [ih, if_neg hkeep]
    · rw [beq_false_of_ne hk]
      split
      · rw [List.lookup_cons, beq_false_of_ne hk]
        exact ih
      · exact ih

/-- A table with the same names in the same places. -/
theorem lookup_zip {as bs : List String} {vs : List α} (hlength : as.length = bs.length)
    (hbs : bs.Nodup) :
    (as.zip vs).lookup k = ((as.zip bs).lookup k).bind fun b => (bs.zip vs).lookup b := by
  induction as generalizing bs vs with
  | nil => rfl
  | cons a as ih =>
    cases bs with
    | nil => cases hlength
    | cons b bs =>
      obtain ⟨hfresh, hrest⟩ := List.nodup_cons.1 hbs
      cases vs with
      | nil => simp
      | cons v vs =>
        rw [List.zip_cons_cons, List.zip_cons_cons, List.lookup_cons, List.lookup_cons]
        by_cases hk : k = a
        · rw [hk, beq_self_eq_true]
          simp
        · rw [beq_false_of_ne hk]
          dsimp only
          rw [ih (Nat.succ.inj hlength) hrest]
          refine Option.bind_congr fun b' hb' => ?_
          have hne : b' ≠ b := by
            rintro rfl
            exact hfresh (List.of_mem_zip (mem_of_lookup_eq hb')).2
          rw [List.zip_cons_cons, List.lookup_cons, beq_false_of_ne hne]

theorem lookup_zip_of_not_mem {names : List String} {vs : List α} (h : k ∉ names) :
    (names.zip vs).lookup k = none :=
  Option.eq_none_iff_forall_not_mem.2 fun _ hv => h (List.of_mem_zip (mem_of_lookup_eq hv)).1

end Querywright
