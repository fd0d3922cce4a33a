/-
  Reading a descriptor before and after its bound values are replaced.

  The names of the fields and their defaults are kept, so reading a descriptor with replaced values
  fails as before or gives the record with replaced values: `RecordKind.coerce_replace`,
  `RecordKind.coerce_cases`. A field of it is the replaced field: `RecordKind.field_replace`.
-/
import Querywright.Proofs.Descriptor.Fieldwise
import Querywright.Proofs.Replacement.Places

namespace Querywright

open Value

variable {g : Value → Value}

/-! ## Fields of a record -/

namespace RecordKind

/-- What the fields of records hold. Only a condition set has bound values of its own. -/
theorem place_cases (kind : RecordKind) (name : String) :
    kind.place name ∈ [Place.kept, .row, .rows, .joins, .conflict, .descriptor .conditions,
        .descriptor .selectAll] ∨
      kind = .conditions ∧ kind.place name = .params := by
  cases kind <;> simp only [place, place.ofSelect] <;> (repeat' split) <;> simp

/-- No field of a record is bound itself. -/
theorem binds_place (kind : RecordKind) (name : String) (v : Value) :
    (kind.place name).binds v = false := by
  obtain hplace | ⟨-, hplace⟩ := place_cases kind name
  · generalize kind.place name = place at hplace
    cases place with
    | cell | param => simp at hplace
    | _ => rfl
  · rw [hplace]
    rfl

theorem placeOfKey_eq {kind : RecordKind} {key : Value} {s : String} (h : key.asText? = some s) :
    kind.placeOfKey key = kind.place (fieldOfName s) := by
  rw [placeOfKey, h]

theorem replace_null (kind : RecordKind) (name : String) :
    replace g (kind.place name) .null = .null :=
  replace_inside (binds_place kind name .null)

theorem replace_descriptor (kind : RecordKind) (v : Value) :
    replace g (.descriptor kind) v = replaceInside g (.descriptor kind) v :=
  replace_inside rfl

theorem replace_record (kind given : RecordKind) (fields : List Value) :
    replace g (.descriptor kind) (.record given fields)
      = .record given (replaceFields g given.places fields) :=
  replace_descriptor kind _

/-- The values of fields that are not given. -/
theorem default?_cases {kind : RecordKind} {name : String} {d : Value}
    (h : kind.default? name = some d) :
    d = .tuple [] ∨ (d = .null ∨ d = .bool false ∨ d = .map []) ∧ kind ≠ .conditions := by
  cases kind <;> simp only [default?] at h <;> (repeat' split at h) <;> cases h <;> simp

/-- What is not given holds no value to bind. -/
theorem replace_default {kind : RecordKind} {name : String} {d : Value}
    (h : kind.default? name = some d) : replace g (kind.place name) d = d := by
  rw [replace_inside (binds_place _ _ _)]
  obtain rfl | ⟨rfl | rfl | rfl, _⟩ := default?_cases h <;> rfl

/-- What becomes of a field where bound values are replaced. -/
def replacing (g : Value → Value) : FieldChange := fun kind name => replace g (kind.place name)

theorem keepsDefaults_replacing : (replacing g).KeepsDefaults where
  null := replace_null
  default _ h := replace_default h

theorem replaceEntries_descriptor (kind : RecordKind) (entries : Entries) :
    replaceEntries g (.descriptor kind) entries = kind.changeEntries (replacing g) entries := by
  rw [replaceEntries_eq_map, changeEntries]
  refine List.map_congr_left fun e _ => ?_
  rw [Place.entry, placeOfKey]
  cases e.1.asText? with
  | some s => rfl
  | none => rw [replace_kept]

theorem replaceFields_places (kind : RecordKind) (fields : List Value) :
    replaceFields g kind.places fields = kind.changeFields (replacing g) fields := by
  have hnames : ∀ (names : List String) (vs : List Value),
      replaceFields g (names.map kind.place) vs = changeNamed (replacing g kind) names vs := by
    intro names
    induction names with
    | nil =>
      intro vs
      cases vs <;> rfl
    | cons name rest ih =>
      intro vs
      cases vs with
      | nil => rfl
      | cons v vs => rw [List.map_cons, replaceFields, changeNamed, ih, replacing]
  exact hnames kind.fieldNames fields

theorem fromEntries_replace (kind : RecordKind) (entries : Entries) :
    kind.fromEntries (replaceEntries g (.descriptor kind) entries)
      = (kind.fromEntries entries).map (replaceFields g kind.places) := by
  rw [replaceEntries_descriptor, fromEntries_change keepsDefaults_replacing,
    funext (replaceFields_places kind)]

theorem coerce_replace (kind : RecordKind) (v : Value) :
    kind.coerce (replace g (.descriptor kind) v)
      = (kind.coerce v).map (replace g (.descriptor kind)) := by
  cases v with
  | record given fields =>
    rw [replace_record]
    simp only [coerce]
    cases kind.accepts given with
    | true => exact congrArg Except.ok (replace_record kind given fields).symm
    | false => rfl
  | map entries =>
    rw [replace_descriptor, replaceInside]
    simp only [coerce, fromEntries_replace]
    cases kind.fromEntries entries with
    | error e => rfl
    | ok fields => exact congrArg Except.ok (replace_record kind kind fields).symm
  | builder options =>
    rw [replace_descriptor, replaceInside, Place.options]
    cases options with
    | record given fields =>
      rw [replace_record]
      simp only [coerce]
      cases kind.accepts given with
      | true => exact congrArg Except.ok (replace_record kind given fields).symm
      | false => rfl
    | _ =>
      rw [replace_descriptor]
      rfl
  | _ =>
    rw [replace_descriptor]
    rfl

/-- A field of a record whose values have been replaced. -/
theorem field_replace (kind : RecordKind) (fields : List Value) (name : String) :
    kind.field (replaceFields g kind.places fields) name
      = replace g (kind.place name) (kind.field fields name) := by
  rw [replaceFields_places, field_change keepsDefaults_replacing, replacing]

/-- A field that holds nothing to bind. -/
theorem field_kept (kind : RecordKind) (name : String) (h : kind.place name = .kept)
    (fields : List Value) :
    kind.field (replaceFields g kind.places fields) name = kind.field fields name := by
  rw [field_replace, h, replace_kept]

theorem field_of_not_mem {kind : RecordKind} {name : String} (h : name ∉ kind.fieldNames)
    (fields : List Value) : kind.field fields name = .null := by
  rw [field, lookup_zip_of_not_mem h]
  rfl

/-! ## Listed values -/

theorem listsParams_null (kind : RecordKind) (name : String) :
    listsParams (kind.place name) .null = true := by
  rw [listsParams_eq, binds_place]
  cases kind.place name <;> rfl

theorem place_ne_params {kind : RecordKind} (h : kind ≠ .conditions) (name : String) :
    kind.place name ≠ .params := by
  obtain hplace | ⟨hkind, -⟩ := place_cases kind name
  · intro hparams
    rw [hparams] at hplace
    simp at hplace
  · exact absurd hkind h

theorem listsParams_default {kind : RecordKind} {name : String} {d : Value}
    (h : kind.default? name = some d) : listsParams (kind.place name) d = true := by
  have hlists : (kind.place name).lists d = true := by
    obtain rfl | ⟨_, hkind⟩ := default?_cases h
    · cases kind.place name <;> rfl
    · exact Place.lists_of_ne (place_ne_params hkind name) d
  have hinside : listsParamsInside (kind.place name) d = true := by
    obtain rfl | ⟨rfl | rfl | rfl, _⟩ := default?_cases h <;> rfl
  rw [listsParams_eq, hlists, hinside, Bool.or_true, Bool.and_true]

theorem listsParams_record (kind given : RecordKind) (fields : List Value) :
    listsParams (.descriptor kind) (.record given fields)
      = listsParamsFields given.places fields :=
  rfl

theorem listsParams_field {kind : RecordKind} {fields : List Value}
    (h : listsParamsFields kind.places fields = true) (name : String) :
    listsParams (kind.place name) (kind.field fields name) = true := by
  have hlookup : ∀ (names : List String) (vs : List Value) (v : Value),
      listsParamsFields (names.map kind.place) vs = true →
        (names.zip vs).lookup name = some v → listsParams (kind.place name) v = true := by
    intro names
    induction names with
    | nil =>
      intro vs v _ hl
      cases hl
    | cons n rest ih =>
      intro vs v hv hl
      cases vs with
      | nil => cases hl
      | cons w vs =>
        rw [List.map_cons, listsParamsFields_cons, Bool.and_eq_true] at hv
        rw [List.zip_cons_cons, List.lookup_cons] at hl
        by_cases hn : name = n
        · subst hn
          rw [beq_self_eq_true] at hl
          cases hl
          exact hv.1
        · rw [beq_false_of_ne hn] at hl
          exact ih vs v hv.2 hl
  rw [field]
  cases hl : (kind.fieldNames.zip fields).lookup name with
  | none => exact listsParams_null kind name
  | some v => exact hlookup _ _ v h hl

theorem listsParamsFields_map {place : String → Place} {value : String → Value}
    (h : ∀ name, listsParams (place name) (value name) = true) (names : List String) :
    listsParamsFields (names.map place) (names.map value) = true := by
  induction names with
  | nil => rfl
  | cons name rest ih => rw [List.map_cons, List.map_cons, listsParamsFields_cons, h, ih, Bool.and_true]

theorem listsParams_fill {kind : RecordKind} {given : List (String × Value)}
    (h : ∀ e ∈ given, listsParams (kind.place e.1) e.2 = true) :
    listsParamsFields kind.places (kind.fill given) = true := by
  refine listsParamsFields_map (fun name => ?_) kind.fieldNames
  cases ha : assigned? name given with
  | some v => exact h _ (mem_of_assigned? ha)
  | none =>
    cases hd : kind.default? name with
    | some d => exact listsParams_default hd
    | none => exact listsParams_null kind name

theorem listsParams_named {kind : RecordKind} {entries : Entries} {given : List (String × Value)}
    (h : listsParamsEntries (.descriptor kind) entries = true)
    (hnamed : kind.named entries = .ok given) :
    ∀ e ∈ given, listsParams (kind.place e.1) e.2 = true := by
  induction entries generalizing given with
  | nil =>
    cases hnamed
    intro e he
    cases he
  | cons e rest ih =>
    obtain ⟨key, v⟩ := e
    rw [listsParamsEntries_cons, Bool.and_eq_true] at h
    rw [named] at hnamed
    split at hnamed
    · rename_i name hname
      obtain ⟨more, hmore, rfl⟩ := map_eq_ok.1 hnamed
      obtain ⟨hmap, _⟩ := Option.filter_eq_some_iff.1 hname
      obtain ⟨s, hs, rfl⟩ := Option.map_eq_some_iff.1 hmap
      rw [List.forall_mem_cons]
      refine ⟨?_, ih h.2 hmore⟩
      rw [← placeOfKey_eq hs]
      exact h.1
    · cases hnamed

theorem listsParams_fromEntries {kind : RecordKind} {entries : Entries} {fields : List Value}
    (h : listsParamsEntries (.descriptor kind) entries = true)
    (hfields : kind.fromEntries entries = .ok fields) :
    listsParamsFields kind.places fields = true := by
  rw [fromEntries, bind_eq_ok] at hfields
  obtain ⟨given, hgiven, hfields⟩ := hfields
  split at hfields
  · cases hfields
  · cases hfields
    exact listsParams_fill (listsParams_named h hgiven)

theorem listsParams_coerce {kind : RecordKind} {v r : Value}
    (h : listsParams (.descriptor kind) v = true) (hr : kind.coerce v = .ok r) :
    listsParams (.descriptor kind) r = true := by
  unfold coerce at hr
  dsimp only at hr
  split at hr
  · split at hr <;> cases hr
    exact h
  · obtain ⟨fields, hfields, rfl⟩ := map_eq_ok.1 hr
    rw [listsParams_record]
    exact listsParams_fromEntries (listsParams_inside rfl h) hfields
  · split at hr
    · split at hr <;> cases hr
      exact listsParams_inside rfl h
    · cases hr
  · cases hr

/-- A descriptor is read before and after replacement with the same fault, or as a record of its
kind and the same record with replaced values. -/
theorem coerce_cases (kind : RecordKind) (hkind : kind ≠ .selectOne) {v : Value}
    (h : listsParams (.descriptor kind) v = true) :
    (∃ e, kind.coerce v = .error e ∧ kind.coerce (replace g (.descriptor kind) v) = .error e) ∨
    ∃ fields, kind.coerce v = .ok (.record kind fields) ∧
      kind.coerce (replace g (.descriptor kind) v)
        = .ok (.record kind (replaceFields g kind.places fields)) ∧
      listsParamsFields kind.places fields = true := by
  rw [coerce_replace]
  cases hr : kind.coerce v with
  | error e => exact .inl ⟨e, rfl, rfl⟩
  | ok r =>
    have hlists := listsParams_coerce h hr
    obtain ⟨given, fields, rfl, hgiven⟩ := coerce_eq_ok hr
    have hsame : given = kind := by
      rw [accepts, Bool.or_eq_true, Bool.and_eq_true, beq_iff_eq, beq_iff_eq] at hgiven
      exact hgiven.resolve_right fun hc => hkind hc.1
    subst hsame
    rw [listsParams_record] at hlists
    exact .inr ⟨fields, rfl, congrArg Except.ok (replace_record given given fields), hlists⟩

end RecordKind

/-- A field after replacement, where what stands for an absent one is kept. -/
theorem Value.getD_replaceFields {places : List Place} {fields : List Value} {d : Value} {i : Nat}
    (hd : replace g (places.getD i .kept) d = d) :
    (replaceFields g places fields).getD i d = replace g (places.getD i .kept) (fields.getD i d) := by
  induction fields generalizing places i with
  | nil => cases places <;> exact hd.symm
  | cons v rest ih =>
    cases places with
    | nil =>
      rw [replaceFields_nil]
      exact (replace_kept _).symm
    | cons place places =>
      cases i with
      | zero => rfl
      | succ i => exact ih hd

end Querywright
