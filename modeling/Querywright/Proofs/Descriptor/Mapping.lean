/-
  Records from mappings.

  * `Spells`: a key is a name of a field, as it is declared or in camel case.
  * `fromEntries_eq_ok`: a mapping is read when its keys are names of fields and no required field
    is missing. Every field then has the value of the last entry for it, or its default.
  * `Describes`: a mapping holds the value of each field once, in any order and under either
    spelling, where fields like their default may be left out.
  * `mappings_describe_records`: a mapping that describes a record is read as that record, and so
    are the record's own fields. A mapping with an unknown key or without a required field is
    refused.
-/
import Mathlib.Data.List.Forall2
import Querywright.Proofs.Outcome
import Querywright.Proofs.Value.Lookup
import Querywright.Session.Request

namespace Querywright.RecordKind

variable {kind : RecordKind} {name : String} {key v : Value} {entries : Entries}

/-! ## Keys and fields -/

/-- The key is a name of the field, as it is declared or in camel case. -/
def Spells (key : Value) (name : String) : Prop :=
  key.asText? = some name ∨ ∃ camel ∈ camelNames, camel.2 = name ∧ key.asText? = some camel.1

instance (key : Value) (name : String) : Decidable (Spells key name) :=
  inferInstanceAs (Decidable
    (_ ∨ ∃ camel ∈ camelNames, camel.2 = name ∧ key.asText? = some camel.1))

/-- The key is a name of a field of the kind. -/
def Known (kind : RecordKind) (key : Value) : Prop := ∃ name ∈ kind.fieldNames, Spells key name

instance (kind : RecordKind) (key : Value) : Decidable (kind.Known key) :=
  inferInstanceAs (Decidable (∃ name ∈ kind.fieldNames, Spells key name))

/-- The field that a key stands for; a key that is no text stands for none. -/
def fieldOfKey? (key : Value) : Option String := key.asText?.map fieldOfName

/-- A declared name stands for itself. -/
theorem fieldOfName_declared (h : name ∈ kind.fieldNames) : fieldOfName name = name := by
  revert name
  cases kind <;> decide

theorem fieldOfName_camel : ∀ camel ∈ camelNames, fieldOfName camel.1 = camel.2 := by decide

theorem nodup_fieldNames (kind : RecordKind) : kind.fieldNames.Nodup := by
  cases kind <;> decide

theorem spells_iff (h : name ∈ kind.fieldNames) :
    Spells key name ↔ fieldOfKey? key = some name := by
  rw [fieldOfKey?, Option.map_eq_some_iff]
  constructor
  · rintro (htext | ⟨camel, hcamel, rfl, htext⟩)
    · exact ⟨name, htext, fieldOfName_declared h⟩
    · exact ⟨camel.1, htext, fieldOfName_camel camel hcamel⟩
  · rintro ⟨s, htext, hname⟩
    cases hs : camelNames.lookup s with
    | none =>
      rw [fieldOfName, hs] at hname
      exact .inl (hname ▸ htext)
    | some field =>
      rw [fieldOfName, hs] at hname
      exact .inr ⟨(s, field), mem_of_lookup_eq hs, hname, htext⟩

theorem known_iff :
    kind.Known key ↔ ∃ name ∈ kind.fieldNames, fieldOfKey? key = some name :=
  exists_congr fun _ => and_congr_right fun h => spells_iff h

/-! ## The entries of a mapping by their fields -/

/-- The entries of a mapping under the fields that their keys stand for. -/
def fieldEntries (entries : Entries) : List (String × Value) :=
  entries.filterMap fun e => (fieldOfKey? e.1).map (·, e.2)

/-- The value that a mapping gives a field: that of the last entry for it. -/
def latest? (name : String) (entries : Entries) : Option Value :=
  assigned? name (fieldEntries entries)

/-- The value of a field in the record of a mapping: its latest, or its default. -/
def valueOf (kind : RecordKind) (entries : Entries) (name : String) : Value :=
  ((latest? name entries).or (kind.default? name)).getD .null

theorem latest?_nil : latest? name [] = none := rfl

theorem latest?_cons (e : Value × Value) (rest : Entries) :
    latest? name (e :: rest)
      = (latest? name rest).or (if fieldOfKey? e.1 = some name then some e.2 else none) := by
  rw [latest?, latest?, fieldEntries, fieldEntries, List.filterMap_cons]
  cases hkey : fieldOfKey? e.1 with
  | none =>
    rw [if_neg nofun, Option.or_none]
    rfl
  | some field =>
    simp only [Option.map_some, assigned?, Option.some.injEq]
    cases assigned? name (rest.filterMap fun e => (fieldOfKey? e.1).map (·, e.2)) <;> rfl

theorem latest?_append (first second : Entries) :
    latest? name (first ++ second) = (latest? name second).or (latest? name first) := by
  induction first with
  | nil => rw [List.nil_append, latest?_nil, Option.or_none]
  | cons e rest ih => rw [List.cons_append, latest?_cons, latest?_cons, ih, Option.or_assoc]

theorem latest?_eq_none :
    latest? name entries = none ↔ ∀ e ∈ entries, fieldOfKey? e.1 ≠ some name := by
  induction entries with
  | nil => simp [latest?_nil]
  | cons e rest ih => simp [latest?_cons, ih, and_comm]

/-- The only entry for a field gives its value. -/
theorem latest?_of_only {before after : Entries} (hkey : fieldOfKey? key = some name)
    (hothers : ∀ e ∈ before ++ after, fieldOfKey? e.1 ≠ some name) :
    latest? name (before ++ (key, v) :: after) = some v := by
  obtain ⟨-, hafter⟩ := List.forall_mem_append.1 hothers
  rw [latest?_append, latest?_cons, latest?_eq_none.2 hafter, if_pos hkey]
  rfl

/-! ## Reading a mapping -/

/-- The fault of a mapping with a key that is no name of a field. -/
def unknownKey (kind : RecordKind) (key : Value) : Fault :=
  .shape (.unknownField key.display kind.name (kind.fieldNames.mergeSort (· ≤ ·)))

theorem named_cons (e : Value × Value) (rest : Entries) :
    kind.named (e :: rest) = match (fieldOfKey? e.1).filter (kind.fieldNames.contains ·) with
      | some name => (kind.named rest).map ((name, e.2) :: ·)
      | none => .error (kind.unknownKey e.1) := rfl

theorem filter_fieldOfKey?_eq_none :
    (fieldOfKey? key).filter (kind.fieldNames.contains ·) = none ↔ ¬kind.Known key := by
  rw [known_iff]
  cases fieldOfKey? key <;> simp

theorem filter_fieldOfKey?_of_known (h : kind.Known key) :
    ∃ name, fieldOfKey? key = some name ∧
      (fieldOfKey? key).filter (kind.fieldNames.contains ·) = some name := by
  obtain ⟨name, hname, hkey⟩ := known_iff.1 h
  exact ⟨name, hkey, by simp [hkey, hname]⟩

theorem named_of_known (h : ∀ e ∈ entries, kind.Known e.1) :
    kind.named entries = .ok (fieldEntries entries) := by
  induction entries with
  | nil => rfl
  | cons e rest ih =>
    obtain ⟨he, hrest⟩ := List.forall_mem_cons.1 h
    obtain ⟨name, hkey, hfilter⟩ := filter_fieldOfKey?_of_known he
    rw [named_cons, hfilter, ih hrest, fieldEntries, fieldEntries, List.filterMap_cons, hkey]
    rfl

/-- The first key that names no field is the one that is refused. -/
theorem named_of_unknown {before after : Entries} (hbefore : ∀ e ∈ before, kind.Known e.1)
    (h : ¬kind.Known key) :
    kind.named (before ++ (key, v) :: after) = .error (kind.unknownKey key) := by
  induction before with
  | nil => rw [List.nil_append, named_cons, filter_fieldOfKey?_eq_none.2 h]
  | cons e rest ih =>
    obtain ⟨he, hrest⟩ := List.forall_mem_cons.1 hbefore
    obtain ⟨name, -, hfilter⟩ := filter_fieldOfKey?_of_known he
    rw [List.cons_append, named_cons, hfilter, ih hrest]
    rfl

theorem exists_first_unknown (h : ∃ e ∈ entries, ¬kind.Known e.1) :
    ∃ before key v after, entries = before ++ (key, v) :: after ∧
      (∀ e ∈ before, kind.Known e.1) ∧ ¬kind.Known key := by
  induction entries with
  | nil => simp at h
  | cons e rest ih =>
    obtain ⟨key, v⟩ := e
    by_cases he : kind.Known key
    · have hrest : ∃ e ∈ rest, ¬kind.Known e.1 := by simpa [he] using h
      obtain ⟨before, key', v', after, rfl, hbefore, hunknown⟩ := ih hrest
      exact ⟨(key, v) :: before, key', v', after, rfl, List.forall_mem_cons.2 ⟨he, hbefore⟩,
        hunknown⟩
    · exact ⟨[], key, v, rest, rfl, nofun, he⟩

theorem fill_fieldEntries (kind : RecordKind) (entries : Entries) :
    kind.fill (fieldEntries entries) = kind.fieldNames.map (kind.valueOf entries) := by
  rw [fill]
  refine List.map_congr_left fun name _ => ?_
  rw [valueOf, latest?]
  cases assigned? name (fieldEntries entries) <;> rfl

/-- A required field that the mapping leaves out. -/
def Lacks (kind : RecordKind) (entries : Entries) (name : String) : Prop :=
  latest? name entries = none ∧ kind.default? name = none

theorem firstMissing?_eq_none :
    kind.firstMissing? (fieldEntries entries) = none ↔
      ∀ name ∈ kind.fieldNames, ¬kind.Lacks entries name := by
  simp [firstMissing?, Lacks, latest?, List.find?_eq_none]

theorem firstMissing?_eq_some (h : kind.firstMissing? (fieldEntries entries) = some name) :
    name ∈ kind.fieldNames ∧ kind.Lacks entries name := by
  refine ⟨List.mem_of_find?_eq_some h, ?_⟩
  simpa [Lacks, latest?] using List.find?_some h

/-- The fault of a mapping without a required field. -/
def missingField (kind : RecordKind) (name : String) : Fault :=
  .missingData (kind.name.map Char.toLower) name

theorem fromEntries_of_known (h : ∀ e ∈ entries, kind.Known e.1) :
    kind.fromEntries entries = match kind.firstMissing? (fieldEntries entries) with
      | some name => .error (kind.missingField name)
      | none => .ok (kind.fieldNames.map (kind.valueOf entries)) := by
  rw [fromEntries, named_of_known h, ok_bind]
  cases kind.firstMissing? (fieldEntries entries) with
  | some name => rfl
  | none => exact congrArg Except.ok (kind.fill_fieldEntries entries)

theorem fromEntries_of_unknown (h : ∃ e ∈ entries, ¬kind.Known e.1) :
    ∃ e ∈ entries, ¬kind.Known e.1 ∧ kind.fromEntries entries = .error (kind.unknownKey e.1) := by
  obtain ⟨before, key, v, after, rfl, hbefore, hunknown⟩ := exists_first_unknown h
  refine ⟨(key, v), List.mem_append_right _ List.mem_cons_self, hunknown, ?_⟩
  rw [fromEntries, named_of_unknown hbefore hunknown]
  rfl

theorem fromEntries_eq_ok {fields : List Value} :
    kind.fromEntries entries = .ok fields ↔
      (∀ e ∈ entries, kind.Known e.1) ∧ (∀ name ∈ kind.fieldNames, ¬kind.Lacks entries name) ∧
        fields = kind.fieldNames.map (kind.valueOf entries) := by
  by_cases hknown : ∀ e ∈ entries, kind.Known e.1
  · rw [fromEntries_of_known hknown, ← firstMissing?_eq_none, and_iff_right hknown]
    cases kind.firstMissing? (fieldEntries entries) <;> simp [eq_comm]
  · have hunknown : ∃ e ∈ entries, ¬kind.Known e.1 := by simpa using hknown
    obtain ⟨e, -, -, herror⟩ := fromEntries_of_unknown hunknown
    rw [herror]
    exact ⟨nofun, fun h => absurd h.1 hknown⟩

/-- A field of a record whose fields were made from their names. -/
theorem field_map (f : String → Value) (h : name ∈ kind.fieldNames) :
    kind.field (kind.fieldNames.map f) name = f name := by
  rw [field]
  suffices hlookup : ∀ names : List String, name ∈ names →
      (names.zip (names.map f)).lookup name = some (f name) by
    rw [hlookup _ h]
    rfl
  intro names hmem
  induction names with
  | nil => cases hmem
  | cons first rest ih =>
    rw [List.map_cons, List.zip_cons_cons, List.lookup_cons]
    by_cases hfirst : name = first
    · subst hfirst
      rw [beq_self_eq_true]
    · rw [beq_false_of_ne hfirst]
      exact ih ((List.mem_cons.1 hmem).resolve_left hfirst)

/-! ## Mappings that describe a record -/

/-- A mapping gives a field a value: by one entry under either spelling, or by none where the
default is like the value. -/
def Gives (like : Value → Value → Prop) (kind : RecordKind) (entries : Entries) (name : String)
    (v : Value) : Prop :=
  (∃ before key after, entries = before ++ (key, v) :: after ∧ Spells key name ∧
    ∀ e ∈ before ++ after, ¬Spells e.1 name) ∨
  (∀ e ∈ entries, ¬Spells e.1 name) ∧ ∃ d, kind.default? name = some d ∧ like d v

/-- A mapping that gives the fields of a record these values, and nothing else. -/
structure Describes (like : Value → Value → Prop) (kind : RecordKind) (entries : Entries)
    (fields : List Value) : Prop where
  known : ∀ e ∈ entries, kind.Known e.1
  each : List.Forall₂ (kind.Gives like entries) kind.fieldNames fields

variable {like : Value → Value → Prop}

theorem exists_of_forall₂ {α β : Type} {R : α → β → Prop} {as : List α} {bs : List β}
    (h : List.Forall₂ R as bs) : ∀ a ∈ as, ∃ b, R a b := by
  induction h with
  | nil => exact nofun
  | cons hab _ ih => exact List.forall_mem_cons.2 ⟨⟨_, hab⟩, ih⟩

theorem Gives.not_lacks (h : kind.Gives like entries name v) (hname : name ∈ kind.fieldNames) :
    ¬kind.Lacks entries name := by
  rintro ⟨hnone, hrequired⟩
  obtain ⟨before, key, after, rfl, hkey, -⟩ | ⟨-, d, hdefault, -⟩ := h
  · exact latest?_eq_none.1 hnone _ (List.mem_append_right _ List.mem_cons_self)
      ((spells_iff hname).1 hkey)
  · rw [hrequired] at hdefault
    cases hdefault

theorem Gives.valueOf (h : kind.Gives like entries name v) (hname : name ∈ kind.fieldNames) :
    kind.valueOf entries name = v ∨ like (kind.valueOf entries name) v := by
  obtain ⟨before, key, after, rfl, hkey, hothers⟩ | ⟨hnone, d, hdefault, hlike⟩ := h
  · left
    rw [RecordKind.valueOf, latest?_of_only ((spells_iff hname).1 hkey) fun e he hfield =>
      hothers e he ((spells_iff hname).2 hfield)]
    rfl
  · right
    have hlatest : latest? name entries = none :=
      latest?_eq_none.2 fun e he hfield => hnone e he ((spells_iff hname).2 hfield)
    rw [RecordKind.valueOf, hlatest, hdefault]
    exact hlike

/-- A mapping that describes a record is read as a record of such fields. -/
theorem Describes.fromMapping {fields : List Value} (h : kind.Describes like entries fields) :
    ∃ fields', kind.fromMapping (.map entries) = .ok (.record kind fields') ∧
      List.Forall₂ (fun v' v => v' = v ∨ like v' v) fields' fields := by
  obtain ⟨hlength, hgives⟩ := List.forall₂_iff_zip.1 h.each
  have hread : kind.fromEntries entries = .ok (kind.fieldNames.map (kind.valueOf entries)) := by
    refine fromEntries_eq_ok.2 ⟨h.known, fun name hname => ?_, rfl⟩
    obtain ⟨v, hv⟩ := exists_of_forall₂ h.each name hname
    exact hv.not_lacks hname
  refine ⟨_, by rw [RecordKind.fromMapping, hread]; rfl, ?_⟩
  rw [List.forall₂_map_left_iff]
  exact List.forall₂_iff_zip.2 ⟨hlength, fun hmem =>
    (hgives hmem).valueOf (List.of_mem_zip hmem).1⟩

theorem Describes.fromMapping_eq {fields : List Value} (h : kind.Describes Eq entries fields) :
    kind.fromMapping (.map entries) = .ok (.record kind fields) := by
  obtain ⟨fields', hread, hsame⟩ := h.fromMapping
  simp only [or_self, List.forall₂_eq_eq_eq] at hsame
  rw [hread, hsame]

/-- The fields of a record, under their names, describe it. -/
theorem describes_toEntries {fields : List Value} (h : fields.length = kind.fieldNames.length) :
    kind.Describes Eq (kind.toEntries fields) fields := by
  refine ⟨fun e he => ?_, List.forall₂_iff_zip.2 ⟨h.symm, fun {name v} hmem => .inl ?_⟩⟩
  · obtain ⟨p, hp, rfl⟩ := List.mem_map.1 he
    exact ⟨p.1, (List.of_mem_zip hp).1, .inl rfl⟩
  · obtain ⟨before, after, hsplit⟩ := List.append_of_mem hmem
    have hothers : name ∉ (before ++ after).map Prod.fst := by
      have hnodup := nodup_fieldNames kind
      rw [← List.map_fst_zip (Nat.le_of_eq h.symm), hsplit, List.map_append, List.map_cons,
        List.perm_middle.nodup_iff, ← List.map_append] at hnodup
      exact (List.nodup_cons.1 hnodup).1
    refine ⟨before.map fun p => (.text p.1, p.2), .text name, after.map fun p => (.text p.1, p.2),
      ?_, .inl rfl, fun e he hspells => ?_⟩
    · rw [toEntries, hsplit, List.map_append, List.map_cons]
    · rw [← List.map_append] at he
      obtain ⟨p, hp, rfl⟩ := List.mem_map.1 he
      have hp' : p ∈ kind.fieldNames.zip fields := by
        rw [hsplit]
        exact (List.perm_middle.mem_iff).2 (List.mem_cons_of_mem _ hp)
      have hfield := (spells_iff (List.of_mem_zip hmem).1).1 hspells
      have hdeclared : fieldOfKey? (.text p.1) = some p.1 :=
        congrArg some (fieldOfName_declared (List.of_mem_zip hp').1)
      rw [hdeclared, Option.some.injEq] at hfield
      exact hothers (hfield ▸ List.mem_map_of_mem hp)

/-- A mapping that describes a record of any kind is read as that record: every field may be named
as it is declared or in camel case, in any order, and fields equal to their default may be left
out. The record's own fields are such a mapping. A mapping with a key that is no name of a field is
refused for such a key, and any other without a required field for such a field. -/
theorem mappings_describe_records (kind : RecordKind) :
    (∀ entries fields, kind.Describes Eq entries fields →
      kind.fromMapping (.map entries) = .ok (.record kind fields)) ∧
    (∀ entries fields, kind.Describes (fun d v => d.equal v = true) entries fields →
      ∃ fields', kind.fromMapping (.map entries) = .ok (.record kind fields') ∧
        List.Forall₂ (fun v' v => v' = v ∨ v'.equal v = true) fields' fields) ∧
    (∀ fields, fields.length = kind.fieldNames.length →
      ∃ entries, Request.fieldsOf (.record kind fields) = .ok entries ∧
        kind.fromMapping (.map entries) = .ok (.record kind fields)) ∧
    (∀ entries, (∃ e ∈ entries, ¬kind.Known e.1) →
      ∃ e ∈ entries, ¬kind.Known e.1 ∧ ∃ fault, fault.label = "InvalidConfigurationError" ∧
        fault = .shape (.unknownField e.1.display kind.name (kind.fieldNames.mergeSort (· ≤ ·))) ∧
        kind.fromMapping (.map entries) = .error fault) ∧
    (∀ entries name, (∀ e ∈ entries, kind.Known e.1) → name ∈ kind.fieldNames →
      kind.default? name = none → (∀ e ∈ entries, ¬Spells e.1 name) →
      ∃ missing ∈ kind.fieldNames, kind.default? missing = none ∧
        (∀ e ∈ entries, ¬Spells e.1 missing) ∧ ∃ fault, fault.label = "MissingDataError" ∧
        fault = .missingData (kind.name.map Char.toLower) missing ∧
        kind.fromMapping (.map entries) = .error fault) := by
  refine ⟨fun entries fields h => h.fromMapping_eq, fun entries fields h => h.fromMapping,
    fun fields h => ⟨_, rfl, (describes_toEntries h).fromMapping_eq⟩, fun entries h => ?_, ?_⟩
  · obtain ⟨e, he, hunknown, hread⟩ := fromEntries_of_unknown h
    refine ⟨e, he, hunknown, _, rfl, rfl, ?_⟩
    rw [fromMapping, hread]
    rfl
  · intro entries name hknown hname hrequired hnone
    have hlacks : kind.Lacks entries name := ⟨latest?_eq_none.2 fun e he hfield =>
      hnone e he ((spells_iff hname).2 hfield), hrequired⟩
    cases hmissing : kind.firstMissing? (fieldEntries entries) with
    | none => exact absurd hlacks (firstMissing?_eq_none.1 hmissing name hname)
    | some missing =>
      obtain ⟨hfield, hlatest, hdefault⟩ := firstMissing?_eq_some hmissing
      refine ⟨missing, hfield, hdefault, fun e he hspells => ?_, _, rfl, rfl, ?_⟩
      · exact latest?_eq_none.1 hlatest e he ((spells_iff hfield).1 hspells)
      · rw [fromMapping, fromEntries_of_known hknown, hmissing]
        rfl

/-- A mapping of a deletion, in camel case where that differs and with the table last. -/
def firstOfStaff : Entries :=
  [(.text "limit", .int 1), (.text "orderBy", .text "id"), (.text "tableName", .text "staff")]

theorem mappings_describe_records_staff :
    fromMapping .delete (.map firstOfStaff)
      = .ok (.record .delete [.text "staff", .null, .null, .text "id", .int 1, .null]) ∧
    (∃ fields', fromMapping .dropTable (.map [(.text "table_name", .text "staff")])
        = .ok (.record .dropTable fields') ∧
      List.Forall₂ (fun v' v => v' = v ∨ v'.equal v = true) fields' [.text "staff", .int 0]) ∧
    (∃ entries, Request.fieldsOf (.record .dropTable [.text "staff", .int 0]) = .ok entries ∧
      fromMapping .dropTable (.map entries) = .ok (.record .dropTable [.text "staff", .int 0])) ∧
    (∃ e ∈ firstOfStaff, ¬Known .selectOne e.1 ∧
      ∃ fault, fault.label = "InvalidConfigurationError" ∧
        fault = .shape (.unknownField e.1.display "SelectOne"
          ((fieldNames .selectOne).mergeSort (· ≤ ·))) ∧
        fromMapping .selectOne (.map firstOfStaff) = .error fault) ∧
    ∃ missing ∈ fieldNames .delete, default? .delete missing = none ∧
      (∀ e ∈ firstOfStaff.take 2, ¬Spells e.1 missing) ∧
      ∃ fault, fault.label = "MissingDataError" ∧
        fault = .missingData ("Delete".map Char.toLower) missing ∧
        fromMapping .delete (.map (firstOfStaff.take 2)) = .error fault := by
  refine ⟨(mappings_describe_records .delete).1 _ _ ⟨by decide, ?_⟩,
    (mappings_describe_records .dropTable).2.1 _ _ ⟨by decide, ?_⟩,
    (mappings_describe_records .dropTable).2.2.1 _ rfl,
    (mappings_describe_records .selectOne).2.2.2.1 _ ⟨_, List.mem_cons_self, by decide⟩,
    (mappings_describe_records .delete).2.2.2.2 _ "table_name" (by decide) (by decide) rfl
      (by decide)⟩
  · refine .cons (.inl ⟨firstOfStaff.take 2, _, [], rfl, by decide, by decide⟩)
      (.cons (.inr ⟨by decide, _, rfl, rfl⟩) (.cons (.inr ⟨by decide, _, rfl, rfl⟩)
      (.cons (.inl ⟨firstOfStaff.take 1, _, firstOfStaff.drop 2, rfl, by decide, by decide⟩)
      (.cons (.inl ⟨[], _, firstOfStaff.drop 1, rfl, by decide, by decide⟩)
      (.cons (.inr ⟨by decide, _, rfl, rfl⟩) .nil)))))
  · exact .cons (.inl ⟨[], _, [], rfl, by decide, by decide⟩)
      (.cons (.inr ⟨by decide, _, rfl, rfl⟩) .nil)

end Querywright.RecordKind
