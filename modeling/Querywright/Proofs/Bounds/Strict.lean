/-
  What writing explicit zeros changes.

  A statement is written in two settings: strictly, with bounds of zero, or without them.

  * `Clause.bound_givenBound`: without zeros, a bound is written as one that is null where it does
    not count as given. `boundsAgree_whole`: a whole bound of zero is a word more or less.
  * `Statement.compile_like`: statements of descriptors that differ in related bounds are written
    alike.
  * `strict_concerns_zeros`: so the settings differ by the zeros alone, at every depth.
-/
import Querywright.Proofs.Bounds.Zeros
import Querywright.Statement.Form

namespace Querywright

open Placeholder

/-! ## The two likenesses of texts -/

/-- The fault without the text that it quotes. -/
def Fault.unquoted : Fault → Fault
  | .parameterMismatch clause _ expected received =>
    .parameterMismatch clause none expected received
  | e => e

theorem textLikeness_eq : TextLikeness Eq id where
  refl _ := rfl
  append hab hcd := by rw [hab, hcd]
  marks h := by rw [h]
  fault clause expected received h := by rw [String.toList_inj.1 h]

theorem textLikeness_interchangeable : TextLikeness Interchangeable Fault.unquoted where
  refl := Interchangeable.refl
  append := Interchangeable.append
  marks := Interchangeable.marks_eq
  fault clause expected received _ := by
    unfold mismatch
    split <;> rfl

/-! ## Bounds in the two settings -/

/-- Whether the value is an integer, a truth value or null. -/
def Value.isWhole : Value → Bool
  | .null => true
  | .int _ => true
  | .bool _ => true
  | _ => false

namespace Clause

variable {lead : String} {b : Value}

theorem bound_of_ne_null (h : b ≠ .null) (strict : Bool) :
    bound lead strict b = if !strict && !b.truth then .ok ""
      else b.toInteger.map fun n => lead ++ toString n := by
  cases b with
  | null => exact absurd rfl h
  | _ => rfl

/-- A bound that counts as given is written in both settings. -/
theorem bound_of_truth (h : b.truth = true) (strict : Bool) :
    bound lead strict b = b.toInteger.map fun n => lead ++ toString n := by
  have hnull : b ≠ .null := by
    rintro rfl
    cases h
  rw [bound_of_ne_null hnull, h, Bool.not_true, Bool.and_false, if_neg Bool.false_ne_true]

theorem bound_lax (h : b.truth = false) : bound lead false b = .ok "" := by
  by_cases hnull : b = .null
  · rw [hnull]
    rfl
  · rw [bound_of_ne_null hnull, h]
    rfl

/-- Without zeros, a bound is written as one that is null where it does not count as given. -/
theorem bound_givenBound (lead : String) (b : Value) :
    bound lead false b = bound lead true b.givenBound := by
  rw [Value.givenBound]
  cases h : b.truth with
  | true => rw [if_pos rfl, bound_of_truth h, bound_of_truth h]
  | false =>
    rw [if_neg Bool.false_ne_true, bound_lax h]
    rfl

/-- A bound that is null or counts as given is written the same in both settings. -/
theorem bound_steady (h : b = .null ∨ b.truth = true) (strict strict' : Bool) :
    bound lead strict b = bound lead strict' b := by
  rcases h with rfl | h
  · rfl
  · rw [bound_of_truth h, bound_of_truth h]

/-- A whole bound that is zero. -/
theorem bound_zero (hwhole : b.isWhole = true) (htruth : b.truth = false) (hnull : b ≠ .null) :
    bound lead true b = .ok (lead ++ "0") := by
  cases b with
  | null => exact absurd rfl hnull
  | bool b =>
    cases b with
    | true => cases htruth
    | false => rfl
  | int n =>
    have hn : n = 0 := by simpa [Value.truth] using htruth
    subst hn
    rfl
  | _ => cases hwhole

end Clause

section

variable {T : List Char → List Char → Prop} {e : Fault → Fault} {lead : String}

theorem led_bound {strict : Bool} {b : Value} {t : String} (hlead : lead ∈ [" LIMIT ", " OFFSET "])
    (h : Clause.bound lead strict b = .ok t) : Led t := by
  simp only [List.mem_cons, List.not_mem_nil, or_false] at hlead
  rcases hlead with rfl | rfl
  · exact (limit_wording h).2
  · exact (offset_wording h).2

/-- A bound that is written the same in both settings. -/
theorem agree_bound (hT : TextLikeness T e) (hlead : lead ∈ [" LIMIT ", " OFFSET "])
    {strict strict' : Bool} {b b' : Value}
    (h : Clause.bound lead strict b = Clause.bound lead strict' b') :
    Agree e (BoundLike T) (Clause.bound lead strict b) (Clause.bound lead strict' b') := by
  rw [← h]
  cases ht : Clause.bound lead strict b with
  | error f => exact .error rfl
  | ok t =>
    have hled := led_bound hlead ht
    exact .ok ⟨hled, hled, fun _ _ hr => hT.append (hT.refl _) hr⟩

end

theorem boundsAgree_givenBound :
    BoundsAgree (fun b b' => b' = b.givenBound) Eq id false true := by
  rintro b _ rfl lead hlead
  exact agree_bound textLikeness_eq hlead (Clause.bound_givenBound lead b)

theorem boundsAgree_steady :
    BoundsAgree (fun b b' => b' = b ∧ (b = .null ∨ b.truth = true)) Eq id false true := by
  rintro _ b ⟨rfl, hb⟩ lead hlead
  exact agree_bound textLikeness_eq hlead (Clause.bound_steady hb false true)

/-- A bound of zero is a word that is left out in the other setting. -/
theorem boundsAgree_whole :
    BoundsAgree (fun b b' => b' = b ∧ b.isWhole = true) Interchangeable Fault.unquoted true false := by
  rintro _ b ⟨rfl, hwhole⟩ lead hlead
  by_cases hsteady : b = .null ∨ b.truth = true
  · exact agree_bound textLikeness_interchangeable hlead (Clause.bound_steady hsteady true false)
  · obtain ⟨hnull, htruth⟩ := not_or.1 hsteady
    have htruth := Bool.eq_false_iff.2 htruth
    have hzero : Clause.bound lead true b = .ok (lead ++ "0") :=
      Clause.bound_zero hwhole htruth hnull
    have hled := led_bound hlead hzero
    have hword : Wording (lead ++ "0") ∧ Headed (lead ++ "0").toList := by
      simp only [List.mem_cons, List.not_mem_nil, or_false] at hlead
      rcases hlead with rfl | rfl
      · exact ⟨by decide, ' ', "LIMIT 0".toList, rfl, by decide⟩
      · exact ⟨by decide, ' ', "OFFSET 0".toList, rfl, by decide⟩
    rw [hzero, Clause.bound_lax htruth]
    refine .ok ⟨hled, led_empty, fun _ hr' h => ?_⟩
    exact ((Interchangeable.refl _).append h).trans
      (Interchangeable.word hword.1.1 hword.1.2 hword.2 hr')

/-! ## Statements in the two settings -/

namespace Statement

/-- The statements bind the same values and are fetched the same, and their texts are alike where a
parenthesis follows. -/
def Like (T : List Char → List Char → Prop) (s s' : Statement) : Prop :=
  ∃ a a' : String, s.query = .text a ∧ s'.query = .text a' ∧ T (a.toList ++ [')']) (a'.toList ++ [')']) ∧
    s.arguments = s'.arguments ∧ s.fetch = s'.fetch

theorem eq_of_like {s s' : Statement} (h : Like Eq s s') : s = s' := by
  obtain ⟨a, a', ha, ha', htext, harguments, hfetch⟩ := h
  have hsame : a = a' := String.toList_inj.1 (List.append_cancel_right htext)
  obtain ⟨query, arguments, fetch⟩ := s
  obtain ⟨query', arguments', fetch'⟩ := s'
  cases ha
  cases ha'
  cases harguments
  cases hfetch
  rw [hsame]

/-- Both values are read as selects that are the same but for related bounds, or refused alike. -/
def ReadLike (B : Value → Value → Prop) (e : Fault → Fault) (r r' : Except Fault Value) : Prop :=
  Agree e (fun v v' => Select.Like B (Select.ofValue v) (Select.ofValue v')) r r'

/-- The fields of two deletes that are the same but for related bounds. -/
structure DeleteLike (B : Value → Value → Prop) (field other : String → Value) : Prop where
  same : ∀ name ∈ ["table_name", "returning", "order_by"], field name = other name
  filter : Filter.Like B (Select.readFilter Select.ofValue (field "where"))
    (Select.readFilter Select.ofValue (other "where"))
  limit : B (field "limit") (other "limit")
  offset : B (field "offset") (other "offset")

section

variable {B : Value → Value → Prop} {T : List Char → List Char → Prop} {e : Fault → Fault}
  (hT : TextLikeness T e) {strict strict' : Bool} (hB : BoundsAgree B T e strict strict')
  {v v' : Value}

include hT hB

theorem selectOne_like (hone : B (.int 1) (.int 1))
    (h : ReadLike B e (RecordKind.coerce .selectOne v) (RecordKind.coerce .selectOne v')) :
    Agree e (Like T) (selectOne strict v) (selectOne strict' v') := by
  refine h.bind fun r r' hr => ?_
  refine (Select.compile_like hT hB (hr.withLimit hone) 0).bind fun piece piece' hpiece => .ok ?_
  exact ⟨_, _, rfl, rfl, hpiece.sql, hpiece.arguments, rfl⟩

theorem selectAll_like (h : ReadLike B e (selectRecord v) (selectRecord v')) :
    Agree e (Like T) (selectAll strict v) (selectAll strict' v') := by
  refine h.bind fun r r' hr => ?_
  refine (Select.compile_like hT hB hr 0).bind fun piece piece' hpiece => .ok ?_
  exact ⟨_, _, rfl, rfl, hpiece.sql, hpiece.arguments, rfl⟩

theorem count_like (hone : B (.int 1) (.int 1)) (hnull : B .null .null)
    (h : ReadLike B e (selectRecord v) (selectRecord v')) :
    Agree e (Like T) (count strict v) (count strict' v') := by
  refine h.bind fun r r' hr => ?_
  refine (Select.compile_like hT hB (hr.counting hone hnull) 0).bind fun piece piece' hpiece => .ok ?_
  exact ⟨_, _, rfl, rfl, hpiece.sql, hpiece.arguments, rfl⟩

theorem deleteText_like {field other : String → Value} (h : DeleteLike B field other)
    (table : String) {f f' : FilterPiece} (hf : f.Like T f') :
    Agree e (Like T) (deleteText strict table f field) (deleteText strict' table f' other) := by
  rw [deleteText, deleteText, h.same "returning" (by decide), h.same "order_by" (by decide)]
  refine .bind_same fun returning => .bind_same fun orderBy => ?_
  refine (hB h.limit " LIMIT " (by decide)).bind fun l l' hl => ?_
  refine (hB h.offset " OFFSET " (by decide)).bind fun o o' ho => .ok ?_
  have hfront := hT.appendString (hT.appendString
    (hT.appendString (hT.refl ("DELETE FROM " ++ table).toList) (hT.clause hf "WHERE"))
    (hT.refl returning.toList)) (hT.refl orderBy.toList)
  exact ⟨_, _, rfl, rfl, hT.bounded hfront hl ho, hf.arguments, rfl⟩

omit hT hB in
theorem delete_of_error {f : Fault} (h : RecordKind.coerce .delete v = .error f) :
    delete strict v = ([], .error f) := by
  unfold delete
  rw [h]
  rfl

theorem delete_like {fields fields' : List Value}
    (hv : RecordKind.coerce .delete v = .ok (.record .delete fields))
    (hv' : RecordKind.coerce .delete v' = .ok (.record .delete fields'))
    (h : DeleteLike B (RecordKind.field .delete fields) (RecordKind.field .delete fields')) :
    (delete strict v).1 = (delete strict' v').1 ∧
      Agree e (Like T) (delete strict v).2 (delete strict' v').2 := by
  have hfilter := Filter.compile_like hT hB h.filter "WHERE" 0
  unfold delete
  rw [hv, hv']
  simp only [ok_bind]
  rw [h.same "table_name" (by decide)]
  cases requireTable "delete" (RecordKind.field .delete fields' "table_name") with
  | error f => exact ⟨rfl, .error rfl⟩
  | ok table =>
    simp only [ok_bind]
    obtain ⟨f, f', hf, hf', hsame⟩ | ⟨piece, piece', hf, hf', hpiece⟩ := hfilter.outcomes
    · rw [hf, hf']
      exact ⟨rfl, .error hsame⟩
    · rw [hf, hf']
      refine ⟨?_, deleteText_like hT hB h table hpiece⟩
      show (if piece.isEmpty then _ else _) = (if piece'.isEmpty then _ else _)
      rw [hpiece.isEmpty_eq]

end

/-! ## The bounds of a descriptor -/

/-- The limits and offsets of a select that is read, at every depth. -/
def readBounds : Except Fault Value → List Value
  | .ok v => (Select.ofValue v).bounds
  | .error _ => []

/-- The limits and offsets, at every depth, of the select or delete that a descriptor stands for. -/
def Form.bounds (form : Form) (v : Value) : List Value :=
  match form with
  | .selectOne => readBounds (RecordKind.coerce .selectOne v)
  | .selectAll => readBounds (selectRecord v)
  | .count => readBounds (selectRecord v)
  | .delete =>
    match RecordKind.coerce .delete v with
    | .ok (.record _ fields) =>
      (Select.readFilter Select.ofValue (RecordKind.field .delete fields "where")).bounds ++
        [RecordKind.field .delete fields "limit", RecordKind.field .delete fields "offset"]
    | _ => []
  | _ => []

/-- The kind of descriptor that is wanted. -/
def Form.kind : Form → RecordKind
  | .selectOne => .selectOne
  | .selectAll => .selectAll
  | .count => .selectAll
  | .insert => .insert
  | .update => .update
  | .delete => .delete
  | .createTable => .createTable
  | .dropTable => .dropTable

section

variable {B : Value → Value → Prop} {T : List Char → List Char → Prop} {e : Fault → Fault}

theorem readLike_self {r : Except Fault Value} (h : ∀ b ∈ readBounds r, B b b) :
    ReadLike B e r r := by
  cases r with
  | error f => exact .error rfl
  | ok v => exact .ok (Select.like_self _ h)

theorem readLike_withoutZeros {kind : RecordKind} (hkind : kind.Flat) (v : Value) :
    ReadLike (fun b b' => b' = b.givenBound) e (kind.coerce v)
      (kind.coerce (kind.withoutZeros v)) := by
  rw [RecordKind.withoutZeros, RecordKind.coerce_change (Value.keepsDefaults_zerosDropped _)]
  cases hr : kind.coerce v with
  | error f => exact .error rfl
  | ok r => exact .ok (Select.ofValue_zerosDropped kind (RecordKind.depth_coerce hkind hr))

theorem readLike_selectRecord (v : Value) :
    ReadLike (fun b b' => b' = b.givenBound) e (selectRecord v)
      (selectRecord (RecordKind.withoutZeros .selectAll v)) := by
  have hselect : Join.isSelect (RecordKind.withoutZeros .selectAll v) = Join.isSelect v :=
    RecordKind.isSelect_change v
  rw [selectRecord, selectRecord, hselect]
  split
  · exact .ok (Select.ofValue_zerosDropped .selectAll (Nat.le_refl _))
  · exact readLike_withoutZeros RecordKind.flat_selectAll v

/-- A delete without bounds of zero is the same delete but for its bounds. -/
theorem deleteLike_zerosDropped {levels : Nat} {fields : List Value}
    (h : Value.depthAll fields ≤ levels) :
    DeleteLike (fun b b' => b' = b.givenBound) (RecordKind.field .delete fields)
      (RecordKind.field .delete
        (RecordKind.changeFields (Value.zerosDropped (levels + 1)) .delete fields)) where
  same name hname := by
    rw [RecordKind.field_change (Value.keepsDefaults_zerosDropped _)]
    refine (Value.inField_other ?_).symm
    simp only [List.mem_cons, List.not_mem_nil, or_false] at hname
    rcases hname with rfl | rfl | rfl <;> decide
  filter := by
    rw [RecordKind.field_change (Value.keepsDefaults_zerosDropped _), Value.zerosDropped,
      Value.inField_conditions (.inl rfl)]
    refine Select.readFilter_like fun s hs => Select.ofValue_zerosDropped .selectAll ?_
    exact Nat.le_trans (Nat.le_trans hs (RecordKind.depth_field _ _ _)) h
  limit := by
    rw [RecordKind.field_change (Value.keepsDefaults_zerosDropped _)]
    exact Value.inField_limit _ _ _
  offset := by
    rw [RecordKind.field_change (Value.keepsDefaults_zerosDropped _)]
    exact Value.inField_offset _ _ _

theorem coerce_delete_outcomes (v : Value) :
    (∃ f, RecordKind.coerce .delete v = .error f) ∨
    ∃ fields, RecordKind.coerce .delete v = .ok (.record .delete fields) ∧
      Value.depthAll fields < v.depth := by
  cases hr : RecordKind.coerce .delete v with
  | error f => exact .inl ⟨f, rfl⟩
  | ok r =>
    obtain ⟨given, fields, rfl, hgiven⟩ := RecordKind.coerce_eq_ok hr
    have hdelete : given = .delete := by
      cases given <;> first | rfl | cases hgiven
    subst hdelete
    have hdepth := RecordKind.depth_coerce (RecordKind.flat_of_ne (by decide) (by decide)) hr
    exact .inr ⟨fields, rfl, hdepth⟩

end

/-- A statement written in a setting against one written in another, of a descriptor and one that
differs in related bounds. -/
def OutcomeLike (T : List Char → List Char → Prop) (e : Fault → Fault)
    (r r' : List Notice × Except Fault Statement) : Prop :=
  r.1 = r'.1 ∧ Agree e (Like T) r.2 r'.2

theorem compile_self {B : Value → Value → Prop} {T : List Char → List Char → Prop} {e : Fault → Fault}
    (hT : TextLikeness T e) {strict strict' : Bool} (hB : BoundsAgree B T e strict strict')
    (hone : B (.int 1) (.int 1)) (hnull : B .null .null) {form : Form}
    (hform : form ∈ [.selectOne, .selectAll, .count, .delete]) {v : Value}
    (h : ∀ b ∈ form.bounds v, B b b) :
    OutcomeLike T e (compile strict form v) (compile strict' form v) := by
  simp only [List.mem_cons, List.not_mem_nil, or_false] at hform
  rcases hform with rfl | rfl | rfl | rfl
  · exact ⟨rfl, selectOne_like hT hB hone (readLike_self h)⟩
  · exact ⟨rfl, selectAll_like hT hB (readLike_self h)⟩
  · exact ⟨rfl, count_like hT hB hone hnull (readLike_self h)⟩
  · obtain ⟨f, hf⟩ | ⟨fields, hfields, -⟩ := coerce_delete_outcomes v
    · show OutcomeLike T e (delete strict v) (delete strict' v)
      rw [delete_of_error hf, delete_of_error hf]
      exact ⟨rfl, .error rfl⟩
    · rw [Form.bounds, hfields] at h
      simp only [List.forall_mem_append, List.forall_mem_cons] at h
      obtain ⟨hfilter, hlimit, hoffset, -⟩ := h
      exact delete_like hT hB hfields hfields
        ⟨fun _ _ => rfl, Filter.like_self _ hfilter, hlimit, hoffset⟩

theorem compile_withoutZeros {form : Form}
    (hform : form ∈ [.selectOne, .selectAll, .count, .delete]) (v : Value) :
    OutcomeLike Eq id (compile false form v) (compile true form (form.kind.withoutZeros v)) := by
  simp only [List.mem_cons, List.not_mem_nil, or_false] at hform
  have hT := textLikeness_eq
  have hB := boundsAgree_givenBound
  rcases hform with rfl | rfl | rfl | rfl
  · have hflat : RecordKind.selectOne.Flat := RecordKind.flat_of_ne (by decide) (by decide)
    exact ⟨rfl, selectOne_like hT hB rfl (readLike_withoutZeros hflat v)⟩
  · exact ⟨rfl, selectAll_like hT hB (readLike_selectRecord v)⟩
  · exact ⟨rfl, count_like hT hB rfl rfl (readLike_selectRecord v)⟩
  · have hcoerce : RecordKind.coerce .delete (RecordKind.withoutZeros .delete v) = _ :=
      RecordKind.coerce_change (Value.keepsDefaults_zerosDropped v.depth) v
    obtain ⟨f, hf⟩ | ⟨fields, hfields, hdepth⟩ := coerce_delete_outcomes v
    · rw [hf] at hcoerce
      show OutcomeLike Eq id (delete false v) (delete true (RecordKind.withoutZeros .delete v))
      rw [delete_of_error hf, delete_of_error hcoerce]
      exact ⟨rfl, .error rfl⟩
    · obtain ⟨levels, hlevels⟩ := Nat.exists_eq_succ_of_ne_zero (Nat.ne_of_gt (Nat.zero_lt_of_lt hdepth))
      rw [hfields, hlevels] at hcoerce
      exact delete_like hT hB hfields hcoerce
        (deleteLike_zerosDropped (Nat.le_of_lt_succ (hlevels ▸ hdepth)))

/-- Writing explicit zeros concerns the zeros alone. Without it, a select, a count or a delete is
written as it is with it from the descriptor whose bounds of zero are null at every depth. Where no
bound at any depth is zero, both settings write the same; and where every bound is a whole number or
null, both succeed and fail alike, with the same values and fetch mode. -/
theorem strict_concerns_zeros {form : Form}
    (hform : form ∈ [.selectOne, .selectAll, .count, .delete]) (v : Value) :
    compile false form v = compile true form (form.kind.withoutZeros v) ∧
    ((∀ b ∈ form.bounds v, b = .null ∨ b.truth = true) →
      compile false form v = compile true form v) ∧
    ((∀ b ∈ form.bounds v, b.isWhole = true) →
      (compile true form v).1 = (compile false form v).1 ∧
      Matches (fun s s' => s.arguments = s'.arguments ∧ s.fetch = s'.fetch)
        ((compile true form v).2.mapError Fault.unquoted)
        ((compile false form v).2.mapError Fault.unquoted)) := by
  have hsame {r r' : List Notice × Except Fault Statement} (h : OutcomeLike Eq id r r') : r = r' :=
    Prod.ext h.1 (h.2.eq_of_id fun _ _ => eq_of_like)
  refine ⟨hsame (compile_withoutZeros hform v), fun h => hsame ?_, fun h => ?_⟩
  · exact compile_self textLikeness_eq boundsAgree_steady ⟨rfl, .inr rfl⟩ ⟨rfl, .inl rfl⟩ hform
      fun b hb => ⟨rfl, h b hb⟩
  · have hlike := compile_self textLikeness_interchangeable boundsAgree_whole ⟨rfl, rfl⟩ ⟨rfl, rfl⟩
      hform fun b hb => ⟨rfl, h b hb⟩
    refine ⟨hlike.1, ?_⟩
    obtain ⟨f, f', hf, hf', hfaults⟩ | ⟨s, s', hs, hs', hstatements⟩ := hlike.2.outcomes
    · rw [hf, hf']
      exact Agree.error hfaults
    · obtain ⟨_, _, -, -, -, harguments, hfetch⟩ := hstatements
      rw [hs, hs']
      exact .ok ⟨harguments, hfetch⟩

/-- A select of the rows that match a condition, up to a limit. -/
def limited (table condition : String) (value limit : Value) : Value :=
  .record .selectAll [.text table, .null,
    .map [(.text "conditions", .text condition), (.text "params", .list [value])],
    .null, .null, .null, .null, .null, limit, .bool false]

/-- A limited select that joins a limited select and has another one among its values. -/
def boundedSelect (limit : Value) : Value :=
  .record .selectAll [.text "a", .null,
    .map [(.text "conditions", .list [.text "n = ?", .text "id IN ?"]),
      (.text "params", .list [.int 2, limited "c" "z = ?" (.int 3) limit])],
    .map [(.text "table", limited "b" "x = ?" (.int 1) limit), (.text "alias", .text "s")],
    .null, .null, .null, limit, .int 5, .bool false]

/-- Bounds of zero at three places, and then none. -/
theorem strict_concerns_zeros_nested :
    compile false .selectAll (boundedSelect (.int 0))
      = compile true .selectAll (boundedSelect .null) ∧
    compile false .selectAll (boundedSelect (.int 7))
      = compile true .selectAll (boundedSelect (.int 7)) ∧
    ∃ s s', (compile true .selectAll (boundedSelect (.int 0))).2 = .ok s ∧
      (compile false .selectAll (boundedSelect (.int 0))).2 = .ok s' ∧
      s.arguments = s'.arguments ∧ s.fetch = s'.fetch ∧ s.arguments.length = 3 := by
  have hform : Form.selectAll ∈ [Form.selectOne, .selectAll, .count, .delete] := by decide
  have hzeros : Form.bounds .selectAll (boundedSelect (.int 0))
      = [.int 0, .null, .int 0, .null, .int 5, .int 0] := rfl
  have hsevens : Form.bounds .selectAll (boundedSelect (.int 7))
      = [.int 7, .null, .int 7, .null, .int 5, .int 7] := rfl
  have hnulls : RecordKind.withoutZeros .selectAll (boundedSelect (.int 0)) = boundedSelect .null :=
    rfl
  obtain ⟨hdropped, -, hwhole⟩ := strict_concerns_zeros hform (boundedSelect (.int 0))
  obtain ⟨-, hsteady, -⟩ := strict_concerns_zeros hform (boundedSelect (.int 7))
  refine ⟨hdropped.trans (congrArg _ hnulls), hsteady ?_, ?_⟩
  · rw [hsevens]
    simp [Value.truth]
  · obtain ⟨-, hmatches⟩ := hwhole (by rw [hzeros]; decide)
    have hcompiled : (compile true .selectAll (boundedSelect (.int 0))).2.toOption.map
        (·.arguments.length) = some 3 := rfl
    obtain ⟨f, f', hf, -⟩ | ⟨s, s', hs, hs', harguments, hfetch⟩ := Agree.outcomes hmatches
    · rw [hf] at hcompiled
      cases hcompiled
    · rw [hs] at hcompiled
      exact ⟨s, s', hs, hs', harguments, hfetch, Option.some.inj hcompiled⟩

end Statement

end Querywright
