/-
  Statements whose placeholders do not all name an argument, on their way to PostgreSQL.

  An index is compared with the number of arguments on one side only: one beyond the arguments is
  refused, but index zero is not, and binds the last argument.

  * `bound?`: what an index binds. `mapM_argumentAt`, `mapM_argumentAt_nil`: what the indexes of a
    text bind, with arguments and without.
  * `translate_beyond`, `translate_within`: the translation of a statement with an index beyond the
    arguments, and of one without.
  * `translate_by_indexes`: the translation of every statement, by the indexes of its placeholders;
    `zero_index_is_bound` is one that binds an argument which no index names.
-/
import Querywright.Proofs.Dialect.Sent
import Querywright.Proofs.Placeholder.Positions

namespace Querywright.Dialect

open Placeholder

/-! ## What indexes bind -/

/-- The argument that an index binds. -/
def bound? (arguments : List Value) (index : Int) : Option Value :=
  if index = 0 then arguments.getLast? else named? arguments index

theorem argumentAt_of_bound? {arguments : List Value} {i : Int} {v : Value}
    (h : bound? arguments i = some v) : argumentAt arguments i = .ok v := by
  unfold bound? named? at h
  unfold argumentAt
  dsimp only
  rw [h]

/-- Where there are arguments, indexes up to their number all bind one. -/
theorem mapM_argumentAt {arguments : List Value} (hne : arguments ≠ []) {is : List Int}
    (h : ∀ i ∈ is, 0 ≤ i ∧ i ≤ arguments.length) :
    ∃ values, is.mapM (argumentAt arguments) = .ok values ∧
      values.map some = is.map (bound? arguments) := by
  induction is with
  | nil => exact ⟨[], rfl, rfl⟩
  | cons i is ih =>
    obtain ⟨⟨hnonneg, hle⟩, hrest⟩ := List.forall_mem_cons.1 h
    obtain ⟨values, hvalues, hbound⟩ := ih hrest
    have hhere : ∃ v, bound? arguments i = some v := by
      by_cases hzero : i = 0
      · exact ⟨arguments.getLast hne, by rw [bound?, if_pos hzero, List.getLast?_eq_some_getLast hne]⟩
      · have hlt : (i - 1).toNat < arguments.length := by omega
        exact ⟨arguments[(i - 1).toNat], by rw [bound?, if_neg hzero, named?,
          List.getElem?_eq_getElem hlt]⟩
    obtain ⟨v, hv⟩ := hhere
    refine ⟨v :: values, ?_, ?_⟩
    · rw [List.mapM_cons, argumentAt_of_bound? hv, ok_bind, hvalues]
      rfl
    · rw [List.map_cons, List.map_cons, hbound, hv]

/-- Without arguments no index binds anything. -/
theorem mapM_argumentAt_nil {i : Int} {is : List Int} (h : i ∈ is) :
    is.mapM (argumentAt []) = .error .noIndex := by
  cases is with
  | nil => cases h
  | cons j is =>
    have hhere : argumentAt [] j = .error .noIndex := by
      unfold argumentAt
      simp
    rw [List.mapM_cons, hhere]
    rfl

theorem noIndex_of_mapM_argumentAt {arguments : List Value} {e : Fault} {is : List Int}
    (h : is.mapM (argumentAt arguments) = .error e) : e = .noIndex := by
  induction is with
  | nil => cases h
  | cons i is ih =>
    rw [List.mapM_cons] at h
    cases hhere : argumentAt arguments i with
    | error e' =>
      rw [hhere] at h
      cases h
      unfold argumentAt at hhere
      dsimp only at hhere
      split at hhere <;> cases hhere
      rfl
    | ok v =>
      rw [hhere, ok_bind] at h
      cases hrest : is.mapM (argumentAt arguments) with
      | error e' =>
        rw [hrest] at h
        cases h
        exact ih hrest
      | ok values =>
        rw [hrest] at h
        cases h

/-! ## Translation -/

/-- Placeholders that are short enough to be read take indexes, none of them below zero. -/
theorem exists_indexes {sql : String} (h : ∀ t ∈ placed sql.toList, t.digits ≤ digitLimit) :
    ∃ is, resolve sql 0 = .ok is ∧ ∀ i ∈ is, 0 ≤ i := by
  have hnone : ((placed sql.toList).find? fun t => digitLimit < t.digits) = none := by
    rw [List.find?_eq_none]
    intro t ht
    simpa using h t ht
  have hscan : scan sql = .ok (placed sql.toList) := by
    rw [scan_eq_placed, hnone]
  rw [scan, bind_eq_ok] at hscan
  obtain ⟨ns, hns, _⟩ := hscan
  exact ⟨assign 0 ns, resolve_eq_ok.2 ⟨ns, hns, rfl⟩, assign_nonneg (Int.le_refl 0) ns⟩

theorem lt_highest_iff {p q : Int} {is : List Int} (hp : p ≤ q) :
    q < highest p is ↔ ∃ i ∈ is, q < i := by
  constructor
  · intro h
    by_contra hnone
    have hle : ∀ i ∈ is, i ≤ q := fun i hi => Int.not_lt.1 fun hlt => hnone ⟨i, hi, hlt⟩
    have := highest_le hp hle
    omega
  · rintro ⟨i, hi, hlt⟩
    exact Int.lt_of_lt_of_le hlt (le_highest_of_mem hi)

/-- The largest index decides whether the text is refused, and each index what it binds. -/
theorem toFormat_of_resolve {sql : String} {is : List Int} (h : resolve sql 0 = .ok is)
    (arguments : List Value) :
    toFormat sql arguments =
      if highest 0 is > arguments.length then
        .error (mismatch "statement" (some sql) (highest 0 is) arguments.length)
      else (is.mapM (argumentAt arguments)).map fun values => ⟨formatText sql, values⟩ := by
  rw [toFormat, h, ok_bind]
  dsimp only
  by_cases hlarge : highest 0 is > arguments.length
  · rw [if_pos hlarge, if_pos hlarge]
    rfl
  · rw [if_neg hlarge, if_neg hlarge]
    cases is.mapM (argumentAt arguments) <;> rfl

section

variable {s : Statement} {sql : String} {is : List Int}

theorem translate_of_resolve (hquery : s.query.asText? = some sql) (his : resolve sql 0 = .ok is) :
    Dialect.postgres.translate s =
      if highest 0 is > s.arguments.length then
        .error (mismatch "statement" (some sql) (highest 0 is) s.arguments.length)
      else (is.mapM (argumentAt s.arguments)).map fun values => ⟨.text (formatText sql), values⟩ := by
  unfold translate
  dsimp only
  rw [hquery]
  dsimp only
  rw [toFormat_of_resolve his]
  by_cases hlarge : highest 0 is > s.arguments.length
  · rw [if_pos hlarge, if_pos hlarge]
    rfl
  · rw [if_neg hlarge, if_neg hlarge]
    cases is.mapM (argumentAt s.arguments) <;> rfl

theorem translate_beyond (hquery : s.query.asText? = some sql) (his : resolve sql 0 = .ok is)
    (h : ∃ i ∈ is, s.arguments.length < i) :
    Dialect.postgres.translate s =
      .error (mismatch "statement" (some sql) (highest 0 is) s.arguments.length) := by
  have hlarge : highest 0 is > s.arguments.length := (lt_highest_iff (Int.natCast_nonneg _)).2 h
  rw [translate_of_resolve hquery his, if_pos hlarge]

/-- Without an index beyond the arguments only the values are left to look up. -/
theorem translate_within (hquery : s.query.asText? = some sql) (his : resolve sql 0 = .ok is)
    (h : ∀ i ∈ is, i ≤ s.arguments.length) :
    Dialect.postgres.translate s =
      (is.mapM (argumentAt s.arguments)).map fun values => ⟨.text (formatText sql), values⟩ := by
  have hlarge : ¬highest 0 is > s.arguments.length :=
    Int.not_lt.2 (highest_le (Int.natCast_nonneg _) h)
  rw [translate_of_resolve hquery his, if_neg hlarge]

theorem mismatch_ne_noIndex (clause : String) (query : Option String) (expected received : Int) :
    mismatch clause query expected received ≠ .noIndex := by
  unfold mismatch
  split <;> exact nofun

theorem exists_beyond_of_mismatch {e r : Int} {clause : String} {query : Option String}
    (hquery : s.query.asText? = some sql) (his : resolve sql 0 = .ok is)
    (h : Dialect.postgres.translate s = .error (mismatch clause query e r)) :
    ∃ i ∈ is, s.arguments.length < i := by
  by_contra hnone
  rw [translate_within hquery his fun i hi => Int.not_lt.1 fun hlt => hnone ⟨i, hi, hlt⟩] at h
  cases hvalues : is.mapM (argumentAt s.arguments) with
  | ok values =>
    rw [hvalues] at h
    cases h
  | error e =>
    rw [hvalues, noIndex_of_mapM_argumentAt hvalues] at h
    exact mismatch_ne_noIndex _ _ _ _ (Except.error.inj h).symm

/-- PostgreSQL's translation refuses a statement for the number of its arguments exactly when an
index lies beyond them. Where every index names an argument it sends the arguments that they name.
What is left are texts with an index zero: those send the last argument for it, and fail otherwise
where there is none. -/
theorem translate_by_indexes (hquery : s.query.asText? = some sql)
    (hdigits : ∀ t ∈ placed sql.toList, t.digits ≤ digitLimit) :
    ∃ is, resolve sql 0 = .ok is ∧ (∀ i ∈ is, 0 ≤ i) ∧
      (Dialect.postgres.translate s =
          .error (mismatch "statement" (some sql) (highest 0 is) s.arguments.length) ↔
        ∃ i ∈ is, s.arguments.length < i) ∧
      ((∀ i ∈ is, 1 ≤ i ∧ i ≤ s.arguments.length) →
        ∃ values, Dialect.postgres.translate s = .ok ⟨.text (formatText sql), values⟩ ∧
          values.map some = is.map (named? s.arguments)) ∧
      ((∀ i ∈ is, i ≤ s.arguments.length) → 0 ∈ is →
        (s.arguments = [] → Dialect.postgres.translate s = .error .noIndex) ∧
        (s.arguments ≠ [] →
          ∃ values, Dialect.postgres.translate s = .ok ⟨.text (formatText sql), values⟩ ∧
            values.map some = is.map (bound? s.arguments))) := by
  obtain ⟨is, his, hnonneg⟩ := exists_indexes hdigits
  refine ⟨is, his, hnonneg, ⟨exists_beyond_of_mismatch hquery his, translate_beyond hquery his⟩,
    fun h => ?_, fun h hzero => ⟨fun hnil => ?_, fun hne => ?_⟩⟩
  · obtain ⟨values, hvalues, hnamed⟩ := exists_named h
    refine ⟨values, ?_, hnamed⟩
    rw [translate_within hquery his fun i hi => (h i hi).2, hvalues]
    rfl
  · rw [translate_within hquery his h, hnil, mapM_argumentAt_nil hzero]
    rfl
  · obtain ⟨values, hvalues, hbound⟩ := mapM_argumentAt hne fun i hi => ⟨hnonneg i hi, h i hi⟩
    refine ⟨values, ?_, hbound⟩
    rw [translate_within hquery his h, hvalues]
    rfl

end

/-- A statement with an index zero between others, and a literal that is none of them. -/
def zeroAmong : Statement :=
  ⟨.text "SELECT ?2, '?9', ?0, ?", [.text "a", .text "b", .text "c"], .all⟩

/-- A statement with a placeholder beyond its arguments. -/
def beyondArguments : Statement := ⟨.text "SELECT ?2, ?", [.text "a", .text "b"], .all⟩

theorem translate_by_indexes_samples :
    (∃ values, Dialect.postgres.translate zeroAmong = .ok ⟨.text "SELECT %s, '?9', %s, %s", values⟩ ∧
      values.map some = [some (.text "b"), some (.text "c"), some (.text "c")]) ∧
    Dialect.postgres.translate beyondArguments =
      .error (.parameterMismatch "statement" (some "SELECT ?2, ?") 3 2) := by
  have hzero : resolve "SELECT ?2, '?9', ?0, ?" 0 = .ok [2, 0, 3] := rfl
  have hbeyond : resolve "SELECT ?2, ?" 0 = .ok [2, 3] := rfl
  constructor
  · obtain ⟨is, his, _, _, _, h⟩ := translate_by_indexes (s := zeroAmong) rfl (by decide)
    rw [hzero] at his
    cases his
    exact (h (by decide) (by decide)).2 nofun
  · obtain ⟨is, his, _, h, _⟩ :=
      translate_by_indexes (s := beyondArguments) rfl (by decide)
    rw [hbeyond] at his
    cases his
    exact h.2 ⟨3, by decide, by decide⟩

/-- Index zero names no argument, and yet the last one is sent for it. -/
theorem zero_index_is_bound :
    resolve "SELECT ?0" 0 = .ok [0] ∧
    Dialect.postgres.translate ⟨.text "SELECT ?0", [.int 1], .all⟩
      = .ok ⟨.text "SELECT %s", [.int 1]⟩ ∧
    Dialect.postgres.translate ⟨.text "SELECT ?0", [], .all⟩ = .error .noIndex :=
  ⟨rfl, rfl, rfl⟩

end Querywright.Dialect
