/-
  With bare placeholders the n-th one binds the n-th value, at any nesting: the indexes are
  consecutive where no condition writes a number (`cumulative_indexes`), and the values are those
  of the select in declared order. Both together are `bare_select_binds_in_order`.
-/
import Querywright.Proofs.Placeholder.Bare
import Querywright.Proofs.Select.Flattening
import Querywright.Proofs.Select.Numbering

namespace Querywright

open Placeholder

/-! ## Consecutive indexes -/

theorem cumulative_indexes :
    Cumulative (fun t => Bare t.toList) fun p is as => is = Clause.indexes p as.length where
  nil _ := rfl
  value p _ := by
    rw [List.length_singleton, Clause.indexes_succ, Clause.indexes_zero]
  joined hbare hresolve hreach :=
    Bare.resolve (joinable_bare.joined hbare) hresolve hreach
  append hfirst hmore := by
    rw [hfirst, hmore, List.length_append, Clause.indexes_add]

/-! ## The whole text -/

/-- The placeholders of a select whose conditions write no number bind its values in declared
order, after any values before it and with any limit. -/
theorem bare_select_binds_in_order {strict : Bool} {descriptor : Value}
    (hquotes : ∀ t ∈ (Select.ofValue descriptor).fragments
      ++ (Select.ofValue descriptor).conditionTexts, Balanced t.toList)
    (hmarks : ∀ t ∈ (Select.ofValue descriptor).fragments, scan t = .ok [])
    (hbare : ∀ t ∈ (Select.ofValue descriptor).conditionTexts, Bare t.toList)
    {limit : Value} {p : Int} {piece : Piece}
    (h : ((Select.ofValue descriptor).withLimit limit).compile strict p = .ok piece) :
    resolve piece.sql p = .ok (Clause.indexes p piece.arguments.length) ∧
      piece.arguments = (Select.ofValue descriptor).flatten := by
  rw [List.forall_mem_append] at hquotes
  have hfrag : ∀ t ∈ (Select.ofValue descriptor).fragments, Plain t :=
    fun t ht => ⟨hquotes.1 t ht, hmarks t ht⟩
  obtain ⟨hflatten, hfaithful⟩ := Select.flatten_withLimit (Select.ofValue descriptor) limit
  constructor
  · obtain ⟨is, hbinds, hreads⟩ := Select.reads_withLimit hfrag hquotes.2 h
    rw [hreads.resolved, hbinds.cumulative cumulative_indexes hbare]
  · rw [← hflatten]
    exact Select.compile_flatten strict _ (hfaithful.2 (Select.faithful_ofValue descriptor)) h

/-- A select with a subquery in a join, one among the values of WHERE and one inside that one. -/
def deepSelect : Value :=
  .record .selectAll (RecordKind.fill .selectAll [("table_name", .text "a"),
    ("join", .map [(.text "table", plainSelect "b" "x = ? AND note <> 'why?'" (.int 1))]),
    ("where", .map [(.text "conditions", .list [.text "n = ?", .text "id IN ? AND m = ?"]),
      (.text "params", .list [.int 2, plainSelect "c" "z IN ?" (plainSelect "d" "w = ?" (.int 3)),
        .int 4])]),
    ("having", .map [(.text "conditions", .text "max(n) > ?"), (.text "params", .list [.int 5])])])

/-- It is written without a limit and with one. -/
theorem deepSelect_compiles : ∀ limit ∈ [Value.null, .int 5],
    (((Select.ofValue deepSelect).withLimit limit).compile false 7).toOption.isSome = true := by
  decide +kernel

theorem bare_select_binds_in_order_deep :
    ∃ piece, ((Select.ofValue deepSelect).withLimit .null).compile false 7 = .ok piece ∧
      resolve piece.sql 7 = .ok [8, 9, 10, 11, 12] ∧
      piece.arguments = [.int 1, .int 2, .int 3, .int 4, .int 5] := by
  have hquotes : ∀ t ∈ (Select.ofValue deepSelect).fragments
      ++ (Select.ofValue deepSelect).conditionTexts, Balanced t.toList := by
    decide
  have hmarks : ∀ t ∈ (Select.ofValue deepSelect).fragments, marks (lex t.toList) = [] := by
    decide
  have hbare : ∀ t ∈ (Select.ofValue deepSelect).conditionTexts, Bare t.toList := by
    decide
  have hcompiled := deepSelect_compiles .null (by simp)
  have hflatten : (Select.ofValue deepSelect).flatten = [.int 1, .int 2, .int 3, .int 4, .int 5] := by
    rfl
  cases hp : ((Select.ofValue deepSelect).withLimit .null).compile false 7 with
  | error e =>
    rw [hp] at hcompiled
    cases hcompiled
  | ok piece =>
    obtain ⟨hresolve, harguments⟩ := bare_select_binds_in_order hquotes
      (fun t ht => scan_eq_nil_iff.2 (hmarks t ht)) hbare hp
    rw [hflatten] at harguments
    rw [harguments] at hresolve
    exact ⟨piece, rfl, hresolve, harguments⟩

end Querywright
