/-
  Descriptors that are changed field by field.

  A `FieldChange` says what becomes of a field of a record, by its name. One that keeps what is
  not given (`KeepsDefaults`) may come before or after reading: a changed descriptor is refused
  for the same, or read as the changed record (`coerce_change`), and a field of that record is
  the changed field (`field_change`).
-/
import Querywright.Proofs.Select.Reading
import Querywright.Proofs.Value.Key

namespace Querywright

/-- What becomes of a field, from the kind of its record, its name and its value. -/
abbrev FieldChange := RecordKind → String → Value → Value

/-- Values that are not given are left alone. -/
structure FieldChange.KeepsDefaults (f : FieldChange) : Prop where
  null : ∀ kind name, f kind name .null = .null
  default : ∀ {kind name d}, name ∈ kind.fieldNames → kind.default? name = some d → f kind name d = d

/-- Values with the change of their names; what has no name is left alone. -/
def changeNamed (f : String → Value → Value) : List String → List Value → List Value
  | _, [] => []
  | [], v :: rest => v :: rest
  | name :: names, v :: rest => f name v :: changeNamed f names rest

namespace RecordKind

section

variable (f : FieldChange) (kind : RecordKind)

/-- The fields of a changed record. -/
def changeFields (fields : List Value) : List Value :=
  changeNamed (f kind) kind.fieldNames fields

/-- The entries of a changed mapping; what names no field is left alone. -/
def changeEntries (entries : Entries) : Entries :=
  entries.map fun e => (e.1, match e.1.asText? with
    | some s => f kind (fieldOfName s) e.2
    | none => e.2)

/-- A changed descriptor: a record, a mapping to a record of the kind, or a builder of a record. -/
def change : Value → Value
  | .record given fields => .record given (given.changeFields f fields)
  | .map entries => .map (kind.changeEntries f entries)
  | .builder (.record given fields) => .builder (.record given (given.changeFields f fields))
  | v => v

end

variable {f : FieldChange} {kind : RecordKind}

/-! ## What a change leaves alone -/

theorem change_builder (f : FieldChange) (kind : RecordKind) (v : Value) :
    (∃ given fields, v = .record given fields ∧
      kind.change f (.builder v) = .builder (.record given (given.changeFields f fields))) ∨
    (∀ given fields, v ≠ .record given fields) ∧ kind.change f (.builder v) = .builder v := by
  cases v with
  | record given fields => exact .inl ⟨given, fields, rfl, rfl⟩
  | _ => exact .inr ⟨nofun, rfl⟩

theorem truth_change (v : Value) : (kind.change f v).truth = v.truth := by
  cases v with
  | builder options => cases options <;> rfl
  | map entries =>
    show (!(kind.changeEntries f entries).isEmpty) = !entries.isEmpty
    rw [changeEntries, List.isEmpty_map]
  | _ => rfl

theorem asText?_change (v : Value) : (kind.change f v).asText? = v.asText? := by
  cases v with
  | builder options => cases options <;> rfl
  | _ => rfl

theorem isSelect_change (v : Value) : Join.isSelect (kind.change f v) = Join.isSelect v := by
  cases v with
  | builder options => cases options <;> rfl
  | _ => rfl

theorem sequence?_change {v : Value} (h : v.sequence? = none) :
    (kind.change f v).sequence? = none := by
  cases v with
  | builder options => cases options <;> rfl
  | list items | tuple items => cases h
  | _ => rfl

/-! ## Records of changed entries -/

theorem field?_changeEntries (entries : Entries) (name : String) :
    (kind.changeEntries f entries).field? name
      = (entries.field? name).map (f kind (fieldOfName name)) :=
  entries.field?_map (fun s v => match s with
    | some s => f kind (fieldOfName s) v
    | none => v) name

theorem changeNamed_map (g : String → Value → Value) (value : String → Value)
    (names : List String) :
    changeNamed g names (names.map value) = names.map fun name => g name (value name) := by
  induction names with
  | nil => rfl
  | cons name rest ih => rw [List.map_cons, changeNamed, ih, List.map_cons]

theorem named_change (entries : Entries) :
    kind.named (kind.changeEntries f entries)
      = (kind.named entries).map (List.map fun e => (e.1, f kind e.1 e.2)) := by
  induction entries with
  | nil => rfl
  | cons e rest ih =>
    obtain ⟨key, v⟩ := e
    rw [changeEntries] at ih
    rw [changeEntries, List.map_cons, named, named, ih]
    cases hname : (key.asText?.map fieldOfName).filter (kind.fieldNames.contains ·) with
    | none => rfl
    | some name =>
      obtain ⟨hmap, _⟩ := Option.filter_eq_some_iff.1 hname
      obtain ⟨s, hs, rfl⟩ := Option.map_eq_some_iff.1 hmap
      dsimp only
      rw [hs]
      cases kind.named rest <;> rfl

theorem assigned?_change (name : String) (given : List (String × Value)) :
    assigned? name (given.map fun e => (e.1, f kind e.1 e.2))
      = (assigned? name given).map (f kind name) := by
  induction given with
  | nil => rfl
  | cons e rest ih =>
    obtain ⟨n, v⟩ := e
    rw [List.map_cons, assigned?, assigned?, ih]
    cases assigned? name rest with
    | some later => rfl
    | none =>
      by_cases hn : n = name
      · subst hn
        simp only [Option.map_none, if_true, Option.map_some]
      · simp only [Option.map_none, if_neg hn]

theorem firstMissing?_change (given : List (String × Value)) :
    kind.firstMissing? (given.map fun e => (e.1, f kind e.1 e.2)) = kind.firstMissing? given := by
  unfold firstMissing?
  simp only [assigned?_change, Option.isNone_map]

theorem fill_change (hf : f.KeepsDefaults) (given : List (String × Value)) :
    kind.fill (given.map fun e => (e.1, f kind e.1 e.2)) = kind.changeFields f (kind.fill given) := by
  rw [fill, fill, changeFields, changeNamed_map]
  refine List.map_congr_left fun name hname => ?_
  rw [assigned?_change]
  cases assigned? name given with
  | some v => rfl
  | none =>
    cases hd : kind.default? name with
    | some d => exact (hf.default hname hd).symm
    | none => exact (hf.null kind name).symm

theorem fromEntries_change (hf : f.KeepsDefaults) (entries : Entries) :
    kind.fromEntries (kind.changeEntries f entries)
      = (kind.fromEntries entries).map (kind.changeFields f) := by
  rw [fromEntries, fromEntries, named_change]
  cases kind.named entries with
  | error e => rfl
  | ok given =>
    simp only [Except.map, ok_bind, firstMissing?_change, fill_change hf]
    cases kind.firstMissing? given <;> rfl

/-! ## Changed descriptors -/

theorem coerce_change (hf : f.KeepsDefaults) (v : Value) :
    kind.coerce (kind.change f v) = (kind.coerce v).map (kind.change f) := by
  cases v with
  | record given fields =>
    simp only [change, coerce]
    cases kind.accepts given <;> rfl
  | map entries =>
    simp only [change, coerce, fromEntries_change hf]
    cases kind.fromEntries entries <;> rfl
  | builder options =>
    obtain ⟨given, fields, rfl, hchange⟩ | ⟨hother, hchange⟩ := change_builder f kind options
    · rw [hchange]
      simp only [coerce]
      cases kind.accepts given <;> rfl
    · rw [hchange]
      cases options with
      | record given fields => exact absurd rfl (hother given fields)
      | _ => rfl
  | _ => rfl

theorem lookup_changeNamed (g : String → Value → Value) (name : String) (names : List String)
    (vs : List Value) :
    (names.zip (changeNamed g names vs)).lookup name = ((names.zip vs).lookup name).map (g name) := by
  induction names generalizing vs with
  | nil => rfl
  | cons n rest ih =>
    cases vs with
    | nil => rfl
    | cons v vs =>
      rw [changeNamed, List.zip_cons_cons, List.zip_cons_cons, List.lookup_cons, List.lookup_cons,
        ih]
      by_cases hn : name = n
      · subst hn
        simp only [beq_self_eq_true, Option.map_some]
      · rw [beq_false_of_ne hn]

theorem field_change (hf : f.KeepsDefaults) (fields : List Value) (name : String) :
    kind.field (kind.changeFields f fields) name = f kind name (kind.field fields name) := by
  rw [field, field, changeFields, lookup_changeNamed]
  cases (kind.fieldNames.zip fields).lookup name with
  | some v => rfl
  | none => exact (hf.null kind name).symm

end RecordKind

/-- A value by its position, where what stands for an absent one is kept. -/
theorem getD_changeNamed (name : String) {g : String → Value → Value} {names : List String}
    {vs : List Value} {d : Value} {i : Nat} (hname : names[i]? = some name) (hd : g name d = d) :
    (changeNamed g names vs).getD i d = g name (vs.getD i d) := by
  induction names generalizing vs i with
  | nil => cases hname
  | cons n rest ih =>
    cases vs with
    | nil => exact hd.symm
    | cons v vs =>
      cases i with
      | zero =>
        cases hname
        rfl
      | succ i => exact ih hname

end Querywright
