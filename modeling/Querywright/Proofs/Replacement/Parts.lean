/-
  Condition sets and joins before and after the bound values are replaced.

  The conditions and all of a join but its table are kept, so both are read as before:
  `ConditionSet.coerce_replace`, `Join.ofValues_replace`.
-/
import Querywright.Proofs.Replacement.Descriptor
import Querywright.Proofs.Value.Key

namespace Querywright

open Value

variable {g : Value → Value}

/-! ## Condition sets -/

namespace ConditionSet

/-- The condition set with replaced values. -/
def replace (g : Value → Value) (c : ConditionSet) : ConditionSet :=
  { c with params := Value.replace g .params c.params }

theorem keys_replace (place : Place) (entries : Entries) :
    (replaceEntries g place entries).keys = entries.keys := by
  rw [replaceEntries_eq_map, Entries.keys, Entries.keys, List.map_map]
  rfl

theorem field?_replace (kind : RecordKind) (entries : Entries) (name : String) :
    (replaceEntries g (.descriptor kind) entries).field? name
      = (entries.field? name).map
          (Value.replace g (kind.place (RecordKind.fieldOfName name))) := by
  rw [RecordKind.replaceEntries_descriptor]
  exact RecordKind.field?_changeEntries entries name

theorem listsParams_field? {kind : RecordKind} {entries : Entries} {name : String} {v : Value}
    (h : listsParamsEntries (.descriptor kind) entries = true)
    (hv : entries.field? name = some v) :
    listsParams (kind.place (RecordKind.fieldOfName name)) v = true := by
  induction entries with
  | nil => cases hv
  | cons e rest ih =>
    obtain ⟨k, w⟩ := e
    rw [listsParamsEntries_cons, Bool.and_eq_true] at h
    rw [Entries.field?, Entries.get?_cons] at hv
    split at hv
    · rename_i hk
      rw [sameKey_text, beq_iff_eq] at hk
      cases hv
      rw [← RecordKind.placeOfKey_eq hk]
      exact h.1
    · exact ih h.2 hv

/-- The listed values of a condition set, one by one. -/
theorem parts_replace {v : Value} (h : Place.params.lists v = true) :
    (Value.replace g .params v).parts = v.parts.map (Value.replace g .param) := by
  rw [replace_inside rfl]
  cases v with
  | null => rfl
  | list items | tuple items => exact replaceAll_eq_map .param items
  | _ => cases h

theorem listsParams_parts {v : Value} (h : listsParams .params v = true) :
    listsParamsAll .param v.parts = true := by
  have hlists := lists_of_listsParams h
  cases v with
  | null => rfl
  | list items | tuple items => exact listsParams_inside rfl h
  | _ => cases hlists

theorem replace_tuple (items : List Value) :
    Value.replace g .params (.tuple items) = .tuple (items.map (Value.replace g .param)) := by
  rw [replace_inside rfl, replaceInside]
  exact congrArg _ (replaceAll_eq_map .param items)

theorem listsParams_tuple {items : List Value} (h : listsParamsAll .param items = true) :
    listsParams .params (.tuple items) = true := by
  rw [listsParams_eq]
  exact h

theorem ofEntries_replace {entries : Entries}
    (h : listsParamsEntries (.descriptor .conditions) entries = true) :
    ofEntries (replaceEntries g (.descriptor .conditions) entries)
      = (ofEntries entries).map (replace g) := by
  have hconditions : (replaceEntries g (.descriptor .conditions) entries).field? "conditions"
      = entries.field? "conditions" := by
    rw [field?_replace]
    cases entries.field? "conditions" with
    | none => rfl
    | some w => exact congrArg some (replace_kept w)
  have hparams : (((replaceEntries g (.descriptor .conditions) entries).field? "params").getD
      .null).parts = ((entries.field? "params").getD .null).parts.map (Value.replace g .param) := by
    rw [field?_replace]
    cases hw : entries.field? "params" with
    | none => rfl
    | some w => exact parts_replace (lists_of_listsParams (listsParams_field? h hw))
  rw [ofEntries, ofEntries, hconditions, keys_replace, hparams]
  cases entries.field? "conditions" with
  | none => rfl
  | some conditions =>
    dsimp only
    split
    · cases keep conditions.parts with
      | error e => rfl
      | ok kept =>
        rw [ok_bind, ok_bind, ← replace_tuple]
        rfl
    · rfl

/-- A condition set is read before and after replacement with the same fault or the same
conditions. -/
theorem coerce_replace {v : Value} (h : listsParams (.descriptor .conditions) v = true) :
    coerce (Value.replace g (.descriptor .conditions) v)
      = (coerce v).map (Option.map (replace g)) := by
  have hkeep : ∀ items, (keep items).map (fun kept => some (⟨.tuple kept, .tuple []⟩ : ConditionSet))
      = ((keep items).map fun kept => some (⟨.tuple kept, .tuple []⟩ : ConditionSet)).map
          (Option.map (replace g)) := by
    intro items
    cases keep items <;> rfl
  cases v with
  | map entries =>
    rw [RecordKind.replace_descriptor, replaceInside]
    simp only [coerce]
    rw [ofEntries_replace (listsParams_inside rfl h)]
    cases ofEntries entries <;> rfl
  | record kind fields =>
    rw [RecordKind.replace_record]
    cases kind with
    | conditions =>
      simp only [coerce]
      rw [getD_replaceFields (i := 0) (by exact replace_kept _),
        getD_replaceFields (i := 1) (by rfl)]
      rw [show (RecordKind.conditions.places).getD 0 .kept = .kept from rfl, replace_kept]
      rfl
    | _ => rfl
  | text s =>
    rw [RecordKind.replace_descriptor]
    simp only [replaceInside, coerce]
    split <;> rfl
  | list items | tuple items =>
    rw [RecordKind.replace_descriptor, replaceInside]
    simp only [coerce]
    rw [show Place.item (.descriptor .conditions) = .kept from rfl, replaceAll_kept]
    exact hkeep items
  | _ =>
    rw [RecordKind.replace_descriptor]
    rfl

theorem listsParams_coerce {v : Value} {c : ConditionSet}
    (h : listsParams (.descriptor .conditions) v = true) (hc : coerce v = .ok (some c)) :
    listsParams .params c.params = true := by
  have hempty : listsParams .params (.tuple []) = true := listsParams_tuple rfl
  obtain ⟨fields, rfl, hparams⟩ | ⟨entries, rfl, hparams⟩ | hparams := coerce_params hc
  · rw [hparams]
    rw [RecordKind.listsParams_record] at h
    rcases fields with _ | ⟨conditions, _ | ⟨params, rest⟩⟩
    · exact hempty
    · exact hempty
    · have hfields : (_ && (listsParams .params params && _)) = true := h
      rw [Bool.and_eq_true, Bool.and_eq_true] at hfields
      exact hfields.2.1
  · rw [hparams]
    refine listsParams_tuple ?_
    have hentries : listsParamsEntries (.descriptor .conditions) entries = true :=
      listsParams_inside rfl h
    cases hw : entries.field? "params" with
    | none => rfl
    | some w => exact listsParams_parts (listsParams_field? hentries hw)
  · rw [hparams]
    exact hempty

end ConditionSet

/-! ## Joins -/

namespace Join

/-- The join with replaced values. -/
def replace (g : Value → Value) (j : Join) : Join :=
  { j with table := Value.replace g (.descriptor .selectAll) j.table }

theorem checkTable_replace (v : Value) :
    checkTable (Value.replace g (.descriptor .selectAll) v)
      = (checkTable v).map (Value.replace g (.descriptor .selectAll)) := by
  rw [checkTable, checkTable, isText, asText?_replace rfl, isSelect_replace rfl,
    truth_replace rfl, ← isText]
  split <;> rfl

theorem tableOf_replace (v : Value) :
    tableOf (Value.replace g (.descriptor .selectAll) v)
      = (tableOf v).map (Value.replace g (.descriptor .selectAll)) := by
  cases v with
  | map entries =>
    rw [RecordKind.replace_descriptor, replaceInside]
    simp only [tableOf, RecordKind.fromMapping]
    rw [RecordKind.fromEntries_replace]
    cases RecordKind.fromEntries .selectAll entries with
    | error e => rfl
    | ok fields => exact congrArg Except.ok (RecordKind.replace_record _ _ fields).symm
  | builder options =>
    rw [RecordKind.replace_descriptor]
    rfl
  | _ =>
    rw [RecordKind.replace_descriptor]
    exact congrArg Except.ok (RecordKind.replace_descriptor .selectAll _).symm

theorem readTable_replace (v : Value) :
    readTable (Value.replace g (.descriptor .selectAll) v)
      = (readTable v).map (Value.replace g (.descriptor .selectAll)) := by
  rw [readTable, readTable, tableOf_replace]
  cases tableOf v with
  | error e => rfl
  | ok t => exact checkTable_replace t

theorem listsParams_readTable {v t : Value}
    (h : listsParams (.descriptor .selectAll) v = true) (ht : readTable v = .ok t) :
    listsParams (.descriptor .selectAll) t = true := by
  rcases readTable_eq_ok ht with ⟨entries, fields, rfl, hfields, rfl⟩ | rfl | rfl
  · rw [RecordKind.listsParams_record]
    exact RecordKind.listsParams_fromEntries (listsParams_inside rfl h) hfields
  · exact listsParams_inside rfl h
  · exact h

/-- One join is read before and after replacement with the same fault or the same join but for
its table. -/
theorem ofValue_replace {v : Value} (h : listsParams (.descriptor .join) v = true) :
    ofValue (Value.replace g (.descriptor .join) v) = (ofValue v).map (replace g) := by
  obtain ⟨e, he, he'⟩ | ⟨fields, hfields, hfields', _⟩ :=
    RecordKind.coerce_cases (g := g) .join (by decide) h
  · rw [ofValue, ofValue, he, he']
    rfl
  · have hkept : ∀ i, 1 ≤ i → (replaceFields g RecordKind.join.places fields).getD i .null
        = fields.getD i .null := by
      intro i hi
      have hplace : RecordKind.join.places.getD i .kept = .kept := by
        rcases i with _ | _ | _ | _ | i
        · omega
        all_goals rfl
      rw [getD_replaceFields (by rw [hplace]; rfl), hplace, replace_kept]
    rw [ofValue, ofValue, hfields, hfields', ok_bind, ok_bind]
    dsimp only
    rw [getD_replaceFields (i := 0) (by rfl), hkept 1 (by omega), hkept 2 (by omega),
      hkept 3 (by omega), show RecordKind.join.places.getD 0 .kept = .descriptor .selectAll from rfl,
      readTable_replace]
    cases readTable (fields.getD 0 .null) <;> rfl

/-- What is known of a join that has been read. -/
def Listed (j : Join) : Prop :=
  (j.table.isText = true ∨ isSelect j.table = true) ∧
    listsParams (.descriptor .selectAll) j.table = true

theorem listed_ofValue {v : Value} {j : Join} (h : listsParams (.descriptor .join) v = true)
    (hj : ofValue v = .ok j) : j.Listed := by
  rw [ofValue, bind_eq_ok] at hj
  obtain ⟨r, hr, hj⟩ := hj
  have hlists := RecordKind.listsParams_coerce h hr
  obtain ⟨given, fields, rfl, hgiven⟩ := RecordKind.coerce_eq_ok hr
  have hsame : given = .join := by
    cases given <;> first | rfl | cases hgiven
  subst hsame
  dsimp only at hj
  rw [bind_eq_ok] at hj
  obtain ⟨t, ht, hj⟩ := hj
  cases hj
  have hfield : listsParams (.descriptor .selectAll) (fields.getD 0 .null) = true := by
    rw [RecordKind.listsParams_record] at hlists
    cases fields with
    | nil => rfl
    | cons w rest =>
      have hlists : (listsParams (.descriptor .selectAll) w && _) = true := hlists
      rw [Bool.and_eq_true] at hlists
      exact hlists.1
  exact ⟨isText_or_isSelect ht, listsParams_readTable hfield ht⟩

/-- The joins of a select are the values of a list, or one value on its own. -/
theorem given_replace (v : Value) :
    given (Value.replace g .joins v) = (given v).map (Value.replace g (.descriptor .join)) := by
  rw [given, given, truth_replace rfl]
  cases htruth : v.truth with
  | false => rfl
  | true =>
    rw [if_pos rfl, if_pos rfl, replace_inside rfl]
    cases v with
    | list items | tuple items => exact replaceAll_eq_map (.descriptor .join) items
    | map entries =>
      show [_] = [_]
      rw [RecordKind.replace_descriptor, replaceInside, replaceInside]
      exact congrArg (fun entries => [Value.map entries])
        (replaceEntries_congr .joins (.descriptor .join) (fun _ => rfl) entries)
    | _ =>
      show [_] = [_]
      rw [RecordKind.replace_descriptor]
      rfl

theorem listsParams_given {v : Value} (h : listsParams .joins v = true) :
    ∀ x ∈ given v, listsParams (.descriptor .join) x = true := by
  intro x hx
  rw [given] at hx
  split at hx
  · have hinside := listsParams_inside rfl h
    cases v with
    | list items | tuple items => exact listsParamsAll_iff.1 hinside x hx
    | map entries =>
      rw [List.mem_singleton.1 hx, listsParams_eq]
      exact listsParamsEntries_congr .joins (.descriptor .join) (fun _ => rfl) hinside
    | record kind fields =>
      rw [List.mem_singleton.1 hx, RecordKind.listsParams_record]
      exact hinside
    | builder options =>
      rw [List.mem_singleton.1 hx, listsParams_eq]
      exact hinside
    | _ =>
      rw [List.mem_singleton.1 hx, listsParams_eq]
      rfl
  · cases hx

theorem ofValues_replace {v : Value} (h : listsParams .joins v = true) :
    ofValues (Value.replace g .joins v) = (ofValues v).map (List.map (replace g)) := by
  rw [ofValues, ofValues, given_replace]
  exact mapM_commutes fun x hx => ofValue_replace (listsParams_given h x hx)

theorem listed_ofValues {v : Value} {joins : List Join} (h : listsParams .joins v = true)
    (hjoins : ofValues v = .ok joins) : ∀ j ∈ joins, j.Listed := by
  intro j hj
  obtain ⟨x, hx, hjx⟩ := mem_of_mapM_eq_ok hjoins j hj
  exact listed_ofValue (listsParams_given h x hx) hjx

end Join

end Querywright
