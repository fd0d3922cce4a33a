/-
  Descriptors without bounds of zero.

  `RecordKind.withoutZeros kind v` is the descriptor `v` with every limit and offset that does not
  count as given replaced by null, at every depth: in the selects that are joined and in those
  among the values of a filter, however they are given. It is read as the same select but for these
  bounds (`Select.ofValue_withoutZeros`).
-/
import Querywright.Proofs.Bounds.Likeness
import Querywright.Proofs.Descriptor.Fieldwise
import Querywright.Proofs.Value.Key

namespace Querywright

/-! ## Selects inside a descriptor -/

namespace Value

/-- The bound where it counts as given, and none where it does not, as zero does. -/
def givenBound (v : Value) : Value := if v.truth then v else .null

section

variable (inner : Value → Value)

/-- A value of a filter, with `inner` applied to the select that it stands for. -/
def inSubquery : Value → Value
  | .builder options => .builder (inner options)
  | v => if Join.isSelect v then inner v else v

/-- The values of a condition set that is given as a record. -/
def inMembers : Value → Value
  | .list items => .list (items.map (inSubquery inner))
  | .tuple items => .tuple (items.map (inSubquery inner))
  | .set items => .set (items.map (inSubquery inner))
  | .map entries => .map (entries.map fun e => (inSubquery inner e.1, e.2))
  | v => v

/-- The values of a condition set that is given as a mapping. -/
def inParts : Value → Value
  | .list items => .list (items.map (inSubquery inner))
  | .tuple items => .tuple (items.map (inSubquery inner))
  | v => inSubquery inner v

/-- What becomes of the entry of a condition set at a key. -/
def inEntry (key : Option String) (v : Value) : Value :=
  if key = some "params" then inParts inner v else v

/-- A condition set. -/
def inConditions : Value → Value
  | .record .conditions fields =>
    .record .conditions (RecordKind.conditions.changeFields
      (fun _ name v => if name = "params" then inMembers inner v else v) fields)
  | .map entries =>
    .map (entries.map fun e => (e.1, inEntry inner e.1.asText? e.2))
  | v => v

/-- What becomes of the field of a join. -/
def inJoinField : FieldChange := fun _ name v => if name = "table" then inner v else v

/-- One join or a list of them. -/
def inJoins : Value → Value
  | .list items => .list (items.map (RecordKind.join.change (inJoinField inner)))
  | .tuple items => .tuple (items.map (RecordKind.join.change (inJoinField inner)))
  | v => RecordKind.join.change (inJoinField inner) v

/-- What becomes of the field of a select or a delete: bounds that do not count as given are null,
and `inner` is applied to the selects inside it. -/
def inField : FieldChange := fun _ name v =>
  if name = "limit" ∨ name = "offset" then v.givenBound
  else if name = "where" ∨ name = "having" then inConditions inner v
  else if name = "join" then inJoins inner v
  else v

end

/-- What becomes of the field of a select or a delete that is nested at most so deep. -/
def zerosDropped : Nat → FieldChange
  | 0 => fun _ _ v => v
  | levels + 1 => inField (RecordKind.selectAll.change (zerosDropped levels))

end Value

/-- The descriptor with every limit and offset that does not count as given replaced by null, at
every depth. -/
def RecordKind.withoutZeros (kind : RecordKind) (v : Value) : Value :=
  kind.change (Value.zerosDropped v.depth) v

namespace Value

/-! ## What is not given -/

theorem keepsDefaults_inJoinField {inner : Value → Value} (h : inner .null = .null) :
    (inJoinField inner).KeepsDefaults where
  null kind name := by
    unfold inJoinField
    split
    · exact h
    · rfl
  default := by
    intro kind name d hname hd
    unfold inJoinField
    split
    · rename_i htable
      subst htable
      cases kind <;> revert hname hd <;> simp [RecordKind.fieldNames, RecordKind.default?]
    · rfl

/-- None of the fields that are changed has a value where it is not given. -/
theorem default?_eq_null {kind : RecordKind} {name : String} {d : Value}
    (h : name ∈ ["limit", "offset", "where", "having", "join"]) (hname : name ∈ kind.fieldNames)
    (hd : kind.default? name = some d) : d = .null := by
  simp only [List.mem_cons, List.not_mem_nil, or_false] at h
  rcases h with rfl | rfl | rfl | rfl | rfl <;> cases kind <;>
    simp_all [RecordKind.fieldNames, RecordKind.default?]

/-- Every other field is left alone. -/
theorem inField_other {inner : Value → Value} {kind : RecordKind} {name : String} {v : Value}
    (h : name ∉ ["limit", "offset", "where", "having", "join"]) : inField inner kind name v = v := by
  simp only [List.mem_cons, List.not_mem_nil, or_false, not_or] at h
  obtain ⟨hlimit, hoffset, hwhere, hhaving, hjoin⟩ := h
  rw [inField, if_neg (not_or.2 ⟨hlimit, hoffset⟩), if_neg (not_or.2 ⟨hwhere, hhaving⟩),
    if_neg hjoin]

theorem keepsDefaults_inField (inner : Value → Value) : (inField inner).KeepsDefaults where
  null kind name := by
    unfold inField
    split
    · rfl
    · split
      · rfl
      · split <;> rfl
  default := by
    intro kind name d hname hd
    by_cases hnull : d = .null
    · subst hnull
      unfold inField
      split
      · rfl
      · split
        · rfl
        · split <;> rfl
    · exact inField_other fun h => hnull (default?_eq_null h hname hd)

theorem keepsDefaults_zerosDropped (levels : Nat) : (zerosDropped levels).KeepsDefaults := by
  cases levels with
  | zero => exact ⟨fun _ _ => rfl, fun _ _ => rfl⟩
  | succ levels => exact keepsDefaults_inField _

/-! ## Values of a filter -/

variable {g : FieldChange}

theorem subquery?_inSubquery (v : Value) :
    (inSubquery (RecordKind.selectAll.change g) v).subquery?
      = v.subquery?.map (RecordKind.selectAll.change g) := by
  cases v with
  | record kind fields => cases kind <;> rfl
  | _ => rfl

theorem inSubquery_of_none {inner : Value → Value} {v : Value} (h : v.subquery? = none) :
    inSubquery inner v = v := by
  cases v with
  | builder options => cases h
  | record kind fields =>
    unfold subquery? at h
    dsimp only at h
    split at h
    · cases h
    · rename_i hselect
      exact if_neg hselect
  | _ => rfl

theorem items?_inMembers (inner : Value → Value) (v : Value) :
    (inMembers inner v).items? = v.items?.map (List.map (inSubquery inner)) := by
  cases v with
  | map entries =>
    simp only [inMembers, items?, Option.map_some, List.map_map]
    rfl
  | text s | keyword k =>
    simp only [inMembers, items?, Option.map_some, characters, List.map_map]
    rfl
  | bytes bs | byteArray bs =>
    simp only [inMembers, items?, Option.map_some, List.map_map]
    rfl
  | _ => rfl

theorem truth_inMembers (inner : Value → Value) (v : Value) :
    (inMembers inner v).truth = v.truth := by
  cases v with
  | list items | tuple items | set items | map entries =>
    simp only [inMembers, truth, List.isEmpty_map]
  | _ => rfl

theorem parts_inParts (v : Value) :
    (inParts (RecordKind.selectAll.change g) v).parts
      = v.parts.map (inSubquery (RecordKind.selectAll.change g)) := by
  cases v with
  | record kind fields => cases kind <;> rfl
  | _ => rfl

end Value

namespace ConditionSet

/-- The condition set with `inner` applied to the selects among its values. -/
def withInner (inner : Value → Value) (c : ConditionSet) : ConditionSet :=
  { c with params := Value.inMembers inner c.params }

variable {g : FieldChange}

theorem ofEntries_inConditions (entries : Entries) :
    ofEntries (entries.map fun e =>
        (e.1, Value.inEntry (RecordKind.selectAll.change g) e.1.asText? e.2))
      = (ofEntries entries).map (withInner (RecordKind.selectAll.change g)) := by
  have hkeys : Entries.keys (entries.map fun e =>
      (e.1, Value.inEntry (RecordKind.selectAll.change g) e.1.asText? e.2)) = entries.keys := by
    rw [Entries.keys, Entries.keys, List.map_map]
    rfl
  have hconditions : Value.inEntry (RecordKind.selectAll.change g) (some "conditions") = id :=
    funext fun v => if_neg (by decide)
  have hparams : (((entries.field? "params").map
        (Value.inEntry (RecordKind.selectAll.change g) (some "params"))).getD .null).parts
      = ((entries.field? "params").getD .null).parts.map
          (Value.inSubquery (RecordKind.selectAll.change g)) := by
    cases entries.field? "params" with
    | none => rfl
    | some v => exact Value.parts_inParts v
  rw [ofEntries, ofEntries, hkeys, Entries.field?_map, Entries.field?_map, hparams, hconditions,
    Option.map_id_fun, id]
  cases entries.field? "conditions" with
  | none => rfl
  | some conditions =>
    dsimp only
    split
    · cases keep conditions.parts <;> rfl
    · rfl

theorem coerce_inConditions (v : Value) :
    coerce (Value.inConditions (RecordKind.selectAll.change g) v)
      = (coerce v).map (Option.map (withInner (RecordKind.selectAll.change g))) := by
  have hkeep : ∀ items, (keep items).map (fun kept => some (⟨.tuple kept, .tuple []⟩ : ConditionSet))
      = ((keep items).map fun kept => some (⟨.tuple kept, .tuple []⟩ : ConditionSet)).map
          (Option.map (withInner (RecordKind.selectAll.change g))) := by
    intro items
    cases keep items <;> rfl
  cases v with
  | map entries =>
    simp only [Value.inConditions, coerce]
    rw [ofEntries_inConditions]
    cases ofEntries entries <;> rfl
  | record kind fields =>
    cases kind with
    | conditions =>
      simp only [Value.inConditions, coerce, RecordKind.changeFields]
      rw [getD_changeNamed "conditions" rfl rfl, getD_changeNamed "params" rfl rfl]
      rfl
    | _ => rfl
  | text s =>
    simp only [Value.inConditions, coerce]
    split <;> rfl
  | list items | tuple items => exact hkeep items
  | _ => rfl

end ConditionSet

/-! ## Joins -/

namespace Join

variable {g : FieldChange} (hg : g.KeepsDefaults)

/-- The join with its table changed. -/
def withInner (inner : Value → Value) (j : Join) : Join := { j with table := inner j.table }

theorem checkTable_change (v : Value) :
    checkTable (RecordKind.selectAll.change g v)
      = (checkTable v).map (RecordKind.selectAll.change g) := by
  rw [checkTable, checkTable, Value.isText, RecordKind.asText?_change, RecordKind.isSelect_change,
    RecordKind.truth_change, ← Value.isText]
  split <;> rfl

include hg

theorem readTable_change (v : Value) :
    readTable (RecordKind.selectAll.change g v)
      = (readTable v).map (RecordKind.selectAll.change g) := by
  rw [readTable, readTable]
  cases v with
  | map entries =>
    simp only [RecordKind.change, tableOf, RecordKind.fromMapping]
    rw [RecordKind.fromEntries_change hg]
    cases RecordKind.fromEntries .selectAll entries with
    | error e => rfl
    | ok fields => exact checkTable_change (.record .selectAll fields)
  | builder options =>
    -- what a builder holds is changed with it where it is a record, and is no table otherwise
    cases options with
    | record kind fields => exact checkTable_change (.record kind fields)
    | text s => exact checkTable_change (g := g) (.text s)
    | keyword k => exact checkTable_change (g := g) (.keyword k)
    | _ => rfl
  | record kind fields => exact checkTable_change (.record kind fields)
  | text s => exact checkTable_change (g := g) (.text s)
  | keyword k => exact checkTable_change (g := g) (.keyword k)
  | _ => rfl

theorem ofValue_change (v : Value) :
    ofValue (RecordKind.join.change (Value.inJoinField (RecordKind.selectAll.change g)) v)
      = (ofValue v).map (withInner (RecordKind.selectAll.change g)) := by
  rw [ofValue, ofValue, RecordKind.coerce_change (Value.keepsDefaults_inJoinField rfl)]
  refine bind_commutes rfl fun r hr => ?_
  obtain ⟨given, fields, rfl, hgiven⟩ := RecordKind.coerce_eq_ok hr
  have hjoin : given = .join := by
    cases given <;> first | rfl | cases hgiven
  subst hjoin
  simp only [RecordKind.change, RecordKind.changeFields]
  rw [getD_changeNamed "table" rfl rfl, getD_changeNamed "on" rfl rfl,
    getD_changeNamed "type" rfl rfl, getD_changeNamed "alias" rfl rfl]
  refine bind_commutes (readTable_change hg _) fun t _ => rfl

omit hg in
theorem given_inJoins (v : Value) :
    given (Value.inJoins (RecordKind.selectAll.change g) v) = (given v).map
      (RecordKind.join.change (Value.inJoinField (RecordKind.selectAll.change g))) := by
  cases hv : v.sequence? with
  | none =>
    have hone : Value.inJoins (RecordKind.selectAll.change g) v
        = RecordKind.join.change (Value.inJoinField (RecordKind.selectAll.change g)) v := by
      cases v <;> first | rfl | cases hv
    rw [hone, given, given, RecordKind.truth_change, RecordKind.sequence?_change hv, hv]
    split <;> rfl
  | some items =>
    cases v with
    | list items | tuple items => cases items <;> rfl
    | _ => cases hv

theorem ofValues_inJoins (v : Value) :
    ofValues (Value.inJoins (RecordKind.selectAll.change g) v)
      = (ofValues v).map (List.map (withInner (RecordKind.selectAll.change g))) := by
  rw [ofValues, ofValues, given_inJoins]
  exact mapM_commutes fun x _ => ofValue_change hg x

end Join

/-! ## Selects -/

namespace Select

variable {B : Value → Value → Prop} {read read' : Value → Select} {g : FieldChange}

theorem readParams_like {items : List Value}
    (hread : ∀ v ∈ items, ∀ s, v.subquery? = some s →
      Select.Like B (read s) (read' (RecordKind.selectAll.change g s))) :
    Params.Like B (readParams read items)
      (readParams read' (items.map (Value.inSubquery (RecordKind.selectAll.change g)))) := by
  induction items with
  | nil => exact .nil
  | cons v rest ih =>
    obtain ⟨hv, hrest⟩ := List.forall_mem_cons.1 hread
    rw [List.map_cons, readParams_cons, readParams_cons, Value.subquery?_inSubquery]
    cases hs : v.subquery? with
    | none =>
      rw [Value.inSubquery_of_none hs]
      exact .value v (ih hrest)
    | some s => exact .query (hv s hs) (ih hrest)

theorem readConditions_like {source : ConditionSet}
    (hread : ∀ v ∈ source.params.items?.getD [], ∀ s, v.subquery? = some s →
      Select.Like B (read s) (read' (RecordKind.selectAll.change g s))) :
    Filter.Like B (readConditions read source)
      (readConditions read' (source.withInner (RecordKind.selectAll.change g))) := by
  have hitems := Value.items?_inMembers (RecordKind.selectAll.change g) source.params
  have hgiven : (source.withInner (RecordKind.selectAll.change g)).params.items?.getD []
      = (source.params.items?.getD []).map
        (Value.inSubquery (RecordKind.selectAll.change g)) := by
    rw [ConditionSet.withInner, hitems]
    cases source.params.items? <;> rfl
  rw [readConditions, readConditions, hgiven]
  refine .given ⟨rfl, (Value.truth_inMembers _ _).symm, ?_, fun hquery => ?_⟩ (readParams_like hread)
  · rw [ConditionSet.withInner, hitems, Option.map_map]
    cases source.params.items? with
    | none => rfl
    | some items => exact congrArg some (List.length_map _).symm
  · -- where no value stands for a subquery, every value is left alone
    have hnone := subquery?_of_hasQuery hquery
    rw [ConditionSet.withInner, hitems]
    cases hi : source.params.items? with
    | none => rfl
    | some items =>
      rw [hi] at hnone
      have hkept : items.map (Value.inSubquery (RecordKind.selectAll.change g)) = items.map id :=
        List.map_congr_left fun x hx => Value.inSubquery_of_none (hnone x hx)
      rw [Option.map_some, hkept, List.map_id]

theorem readFilter_like {v : Value}
    (hread : ∀ s, s.depth ≤ v.depth →
      Select.Like B (read s) (read' (RecordKind.selectAll.change g s))) :
    Filter.Like B (readFilter read v)
      (readFilter read' (Value.inConditions (RecordKind.selectAll.change g) v)) := by
  rw [readFilter, readFilter, ConditionSet.coerce_inConditions]
  cases hc : ConditionSet.coerce v with
  | error e => exact .invalid e
  | ok source? =>
    cases source? with
    | none => exact .absent
    | some source =>
      refine readConditions_like fun x hx s hs => hread s ?_
      exact Nat.le_trans (Value.depth_subquery? hs) (ConditionSet.depth_params hc x hx)

theorem readJoins_like {joins : List Join}
    (hkind : ∀ j ∈ joins, j.table.isText = true ∨ Join.isSelect j.table = true)
    (hread : ∀ j ∈ joins, Select.Like B (read j.table)
      (read' (RecordKind.selectAll.change g j.table))) :
    Joins.Like B (readJoins read joins)
      (readJoins read' (joins.map (Join.withInner (RecordKind.selectAll.change g)))) := by
  induction joins with
  | nil => exact .nil
  | cons j rest ih =>
    obtain ⟨hj, hrest⟩ := List.forall_mem_cons.1 hread
    obtain ⟨hjkind, hrestkind⟩ := List.forall_mem_cons.1 hkind
    rw [List.map_cons, readJoins, readJoins, Join.withInner, RecordKind.isSelect_change]
    cases hselect : Join.isSelect j.table with
    | true => exact .query j _ hj (ih hrestkind hrest)
    | false =>
      have htable : RecordKind.selectAll.change g j.table = j.table := by
        have htext := hjkind.resolve_right (Bool.eq_false_iff.1 hselect)
        cases ht : j.table <;> rw [ht] at htext <;> first | rfl | cases htext
      rw [if_neg Bool.false_ne_true, if_neg Bool.false_ne_true, htable]
      exact .table j (ih hrestkind hrest)

end Select

namespace Value

theorem inField_limit (inner : Value → Value) (kind : RecordKind) (v : Value) :
    inField inner kind "limit" v = v.givenBound := if_pos (by decide)

theorem inField_offset (inner : Value → Value) (kind : RecordKind) (v : Value) :
    inField inner kind "offset" v = v.givenBound := if_pos (by decide)

theorem inField_conditions {inner : Value → Value} {kind : RecordKind} {name : String}
    (h : name = "where" ∨ name = "having") (v : Value) :
    inField inner kind name v = inConditions inner v := by
  have hbound : ¬ (name = "limit" ∨ name = "offset") := by
    rcases h with rfl | rfl <;> decide
  rw [inField, if_neg hbound, if_pos h]

theorem inField_join (inner : Value → Value) (kind : RecordKind) (v : Value) :
    inField inner kind "join" v = inJoins inner v := by
  rw [inField, if_neg (by decide), if_neg (by decide), if_pos rfl]

end Value

namespace Select

variable {g : FieldChange} (hg : g.KeepsDefaults)

include hg

/-- The fields of a select are read after the change as the same select but for its bounds, where
the selects inside it are. -/
theorem ofFields_like {read read' : Value → Select} {kind : RecordKind} {fields : List Value}
    (hread : ∀ s, s.depth ≤ Value.depthAll fields →
      Select.Like (fun b b' => b' = b.givenBound) (read s)
        (read' (RecordKind.selectAll.change g s))) :
    Select.Like (fun b b' => b' = b.givenBound) (ofFields read kind fields)
      (ofFields read' kind
        (kind.changeFields (Value.inField (RecordKind.selectAll.change g)) fields)) := by
  have hfield := kind.field_change (Value.keepsDefaults_inField (RecordKind.selectAll.change g)) fields
  have hsame : ∀ name ∉ ["limit", "offset", "where", "having", "join"],
      kind.field (kind.changeFields (Value.inField (RecordKind.selectAll.change g)) fields) name
        = kind.field fields name := fun name hname =>
    (hfield name).trans (Value.inField_other hname)
  have hfilter : ∀ name, name = "where" ∨ name = "having" →
      Filter.Like (fun b b' => b' = b.givenBound) (readFilter read (kind.field fields name))
        (readFilter read' (kind.field
          (kind.changeFields (Value.inField (RecordKind.selectAll.change g)) fields) name)) := by
    intro name hname
    rw [hfield, Value.inField_conditions hname]
    exact readFilter_like fun s hs => hread s (Nat.le_trans hs (kind.depth_field fields name))
  unfold ofFields
  dsimp only
  rw [hsame "table_name" (by decide), hsame "fields" (by decide), hsame "group_by" (by decide),
    hsame "order_by" (by decide), hfield "join", Value.inField_join, Join.ofValues_inJoins hg]
  refine .mk ?_ (hfilter _ (.inl rfl)) (hfilter _ (.inr rfl)) ?_ ?_
  · cases hjoins : Join.ofValues (kind.field fields "join") with
    | error e => exact .invalid e
    | ok joins =>
      refine readJoins_like (Join.isText_or_isSelect_of_mem hjoins) fun j hj => hread _ ?_
      exact Nat.le_trans (Join.depth_table hjoins j hj) (kind.depth_field fields "join")
  · exact (hfield "limit").trans (Value.inField_limit _ _ _)
  · exact (hfield "offset").trans (Value.inField_offset _ _ _)

omit hg in
/-- What is no record is read as a select of nothing, before the change and after it. -/
theorem ofValue_change_blank {v : Value} (kind : RecordKind)
    (h : ∀ given fields, v ≠ .record given fields) :
    ofValue v = blank ∧ ofValue (kind.change g v) = blank := by
  cases v with
  | record given fields => exact absurd rfl (h given fields)
  | builder options => cases options <;> exact ⟨rfl, rfl⟩
  | _ => exact ⟨rfl, rfl⟩

omit hg in
/-- A select without bounds of zero is the same select but for its bounds, however deeply selects are
nested in it. -/
theorem ofValue_zerosDropped {levels : Nat} (kind : RecordKind) {v : Value} (h : v.depth ≤ levels) :
    Select.Like (fun b b' => b' = b.givenBound) (ofValue v)
      (ofValue (kind.change (Value.zerosDropped levels) v)) := by
  induction levels generalizing kind v with
  | zero =>
    obtain ⟨hv, hchange⟩ := ofValue_change_blank (g := Value.zerosDropped 0) (v := v) kind
      fun given fields hrecord => by
        rw [hrecord] at h
        cases h
    rw [hv, hchange]
    exact .mk .nil .absent .absent rfl rfl
  | succ levels ih =>
    by_cases hrecord : ∃ given fields, v = .record given fields
    · obtain ⟨given, fields, rfl⟩ := hrecord
      rw [RecordKind.change, ofValue_record, ofValue_record]
      refine ofFields_like (Value.keepsDefaults_zerosDropped levels) fun s hs => ih .selectAll ?_
      exact Nat.le_trans hs (Nat.le_of_succ_le_succ h)
    · obtain ⟨hv, hchange⟩ := ofValue_change_blank (g := Value.zerosDropped (levels + 1)) (v := v)
        kind fun given fields heq => hrecord ⟨given, fields, heq⟩
      rw [hv, hchange]
      exact .mk .nil .absent .absent rfl rfl

end Select

end Querywright
