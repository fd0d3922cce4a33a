/-
  Replacing the values that a descriptor binds.

  A descriptor binds the values of its rows and the values of its conditions, at every depth.
  `Place` says what stands at a place of a descriptor; `Value.replace g place v` is `v` with `g`
  applied to every value that is bound there and everything else left alone.

  The members of a condition set's `params` are what is replaced, so the set must list them:
  `Value.listsParams`.
-/
import Querywright.Select.Tree

namespace Querywright

/-- What stands at a place of a descriptor. -/
inductive Place where
  /-- Nothing that is bound. -/
  | kept
  /-- A value of a row. -/
  | cell
  /-- A map from columns to values. -/
  | row
  /-- One row or a list of rows. -/
  | rows
  /-- A value of a condition set, which may be a subquery. -/
  | param
  /-- The values of a condition set. -/
  | params
  /-- One join or a list of joins. -/
  | joins
  /-- A conflict keyword or an upsert. -/
  | conflict
  /-- A descriptor of the kind. -/
  | descriptor (kind : RecordKind)
  deriving DecidableEq, Repr

namespace RecordKind

/-- What a field of a record holds. -/
def place : RecordKind → String → Place
  | .conditions, name => if name = "params" then .params else .kept
  | .join, name => if name = "table" then .descriptor .selectAll else .kept
  | .selectOne, name => ofSelect name
  | .selectAll, name => ofSelect name
  | .upsert, name =>
    if name = "data" then .row else if name = "where" then .descriptor .conditions else .kept
  | .insert, name =>
    if name = "data" then .rows else if name = "on_conflict" then .conflict else .kept
  | .update, name =>
    if name = "data" then .row else if name = "where" then .descriptor .conditions else .kept
  | .delete, name => if name = "where" then .descriptor .conditions else .kept
  | _, _ => .kept
where
  ofSelect (name : String) : Place :=
    if name = "where" ∨ name = "having" then .descriptor .conditions
    else if name = "join" then .joins
    else .kept

/-- What the entry of a mapping at a key holds. -/
def placeOfKey (kind : RecordKind) (key : Value) : Place :=
  match key.asText? with
  | some name => kind.place (fieldOfName name)
  | none => .kept

/-- What the fields of a record hold, in order. -/
def places (kind : RecordKind) : List Place := kind.fieldNames.map kind.place

end RecordKind

namespace Place

/-- Whether the value at the place is bound itself. -/
def binds : Place → Value → Bool
  | .cell, _ => true
  | .param, v => v.subquery?.isNone
  | _, _ => false

/-- The place of a member of a list. -/
def item : Place → Place
  | .params => .param
  | .joins => .descriptor .join
  | .rows => .row
  | _ => .kept

/-- The place of a map's value at a key. -/
def entry : Place → Value → Place
  | .row, _ => .cell
  | .rows, _ => .cell
  | .joins, key => RecordKind.join.placeOfKey key
  | .conflict, key => RecordKind.upsert.placeOfKey key
  | .descriptor kind, key => kind.placeOfKey key
  | _, _ => .kept

/-- The places of a record's fields. -/
def fields : Place → RecordKind → List Place
  | .param, kind => kind.places
  | .joins, kind => kind.places
  | .conflict, kind => if kind = .upsert then kind.places else []
  | .descriptor _, kind => kind.places
  | _, _ => []

/-- The place of the record that a builder has built. -/
def options : Place → Place
  | .param => .descriptor .selectAll
  | .joins => .descriptor .join
  | .descriptor kind => .descriptor kind
  | _ => .kept

/-- Whether the values of a condition set are listed. -/
def lists : Place → Value → Bool
  | .params, .list _ => true
  | .params, .tuple _ => true
  | .params, .null => true
  | .params, _ => false
  | _, _ => true

theorem lists_of_ne {place : Place} (h : place ≠ .params) (v : Value) :
    place.lists v = true := by
  cases place <;> first | rfl | exact absurd rfl h

end Place

namespace Value

variable (g : Value → Value)

mutual

/-- Apply `g` to every value that is bound at the place or inside it. -/
def replace (place : Place) (v : Value) : Value :=
  if place.binds v then g v
  else match v with
    | .list items => .list (replaceAll place.item items)
    | .tuple items => .tuple (replaceAll place.item items)
    | .map entries => .map (replaceEntries place entries)
    | .record kind fields => .record kind (replaceFields (place.fields kind) fields)
    | .builder options => .builder (replace place.options options)
    | v => v

def replaceAll (place : Place) : List Value → List Value
  | [] => []
  | v :: rest => replace place v :: replaceAll place rest

def replaceEntries (place : Place) : List (Value × Value) → Entries
  | [] => []
  | (k, v) :: rest => (k, replace (place.entry k) v) :: replaceEntries place rest

def replaceFields : List Place → List Value → List Value
  | _, [] => []
  | [], v :: rest => v :: rest
  | place :: places, v :: rest => replace place v :: replaceFields places rest

end

mutual

/-- Whether every condition set at the place or inside it lists its values. -/
def listsParams (place : Place) (v : Value) : Bool :=
  place.lists v && (place.binds v || match v with
    | .list items => listsParamsAll place.item items
    | .tuple items => listsParamsAll place.item items
    | .map entries => listsParamsEntries place entries
    | .record kind fields => listsParamsFields (place.fields kind) fields
    | .builder options => listsParams place.options options
    | _ => true)

def listsParamsAll (place : Place) : List Value → Bool
  | [] => true
  | v :: rest => listsParams place v && listsParamsAll place rest

def listsParamsEntries (place : Place) : List (Value × Value) → Bool
  | [] => true
  | (k, v) :: rest => listsParams (place.entry k) v && listsParamsEntries place rest

def listsParamsFields : List Place → List Value → Bool
  | _, [] => true
  | [], _ :: _ => true
  | place :: places, v :: rest => listsParams place v && listsParamsFields places rest

end

/-- Apply `g` to every value that is bound inside the value. -/
def replaceInside (place : Place) : Value → Value
  | .list items => .list (replaceAll g place.item items)
  | .tuple items => .tuple (replaceAll g place.item items)
  | .map entries => .map (replaceEntries g place entries)
  | .record kind fields => .record kind (replaceFields g (place.fields kind) fields)
  | .builder options => .builder (replace g place.options options)
  | v => v

/-- Whether every condition set inside the value lists its values. -/
def listsParamsInside (place : Place) : Value → Bool
  | .list items => listsParamsAll place.item items
  | .tuple items => listsParamsAll place.item items
  | .map entries => listsParamsEntries place entries
  | .record kind fields => listsParamsFields (place.fields kind) fields
  | .builder options => listsParams place.options options
  | _ => true

/-! ## Replacement at each kind of value -/

variable {g}

theorem replace_eq (place : Place) (v : Value) :
    replace g place v = if place.binds v then g v else replaceInside g place v := by
  cases v <;> rfl

theorem replace_of_binds {place : Place} {v : Value} (h : place.binds v = true) :
    replace g place v = g v := by
  rw [replace_eq, if_pos h]

theorem replace_inside {place : Place} {v : Value} (h : place.binds v = false) :
    replace g place v = replaceInside g place v := by
  rw [replace_eq, if_neg (Bool.eq_false_iff.1 h)]

theorem replaceAll_eq_map (place : Place) (items : List Value) :
    replaceAll g place items = items.map (replace g place) := by
  induction items with
  | nil => rfl
  | cons v rest ih => exact congrArg (replace g place v :: ·) ih

theorem replaceEntries_eq_map (place : Place) (entries : Entries) :
    replaceEntries g place entries = entries.map fun e => (e.1, replace g (place.entry e.1) e.2) := by
  induction entries with
  | nil => rfl
  | cons e rest ih =>
    obtain ⟨k, v⟩ := e
    exact congrArg ((k, replace g (place.entry k) v) :: ·) ih

/-- Two places whose entries hold the same replace the same values of a map. -/
theorem replaceEntries_congr (p q : Place) (h : ∀ key, p.entry key = q.entry key)
    (entries : Entries) : replaceEntries g p entries = replaceEntries g q entries := by
  rw [replaceEntries_eq_map, replaceEntries_eq_map]
  exact List.map_congr_left fun e _ => by rw [h]

theorem replaceFields_nil (fields : List Value) : replaceFields g [] fields = fields := by
  cases fields <;> rfl

mutual

/-- Where nothing is bound, nothing is replaced. -/
theorem replace_kept : ∀ (v : Value), replace g .kept v = v
  | .list items => by
    rw [replace_inside rfl]
    exact congrArg _ (replaceAll_kept items)
  | .tuple items => by
    rw [replace_inside rfl]
    exact congrArg _ (replaceAll_kept items)
  | .map entries => by
    rw [replace_inside rfl]
    exact congrArg _ (replaceEntries_kept entries)
  | .record kind fields => by
    rw [replace_inside rfl]
    exact congrArg _ (replaceFields_nil fields)
  | .builder options => by
    rw [replace_inside rfl]
    exact congrArg _ (replace_kept options)
  | .null | .bool _ | .int _ | .float _ | .text _ | .bytes _ | .byteArray _ | .set _ | .raw _
  | .keyword _ => replace_inside rfl

theorem replaceAll_kept : ∀ (items : List Value), replaceAll g .kept items = items
  | [] => rfl
  | v :: rest => by
    change replace g .kept v :: replaceAll g .kept rest = v :: rest
    rw [replace_kept v, replaceAll_kept rest]

theorem replaceEntries_kept : ∀ (entries : List (Value × Value)),
    replaceEntries g .kept entries = entries
  | [] => rfl
  | (k, v) :: rest => by
    change (k, replace g .kept v) :: replaceEntries g .kept rest = (k, v) :: rest
    rw [replace_kept v, replaceEntries_kept rest]

end

/-- A place where no value is bound itself keeps the kind of its value. -/
theorem kindName_replace {place : Place} {v : Value} (h : place.binds v = false) :
    (replace g place v).kindName = v.kindName := by
  rw [replace_inside h]
  cases v <;> rfl

theorem truth_replace {place : Place} {v : Value} (h : place.binds v = false) :
    (replace g place v).truth = v.truth := by
  rw [replace_inside h]
  cases v with
  | list items | tuple items =>
    rw [replaceInside, replaceAll_eq_map, truth, truth, List.isEmpty_map]
  | map entries =>
    rw [replaceInside, replaceEntries_eq_map, truth, truth, List.isEmpty_map]
  | _ => rfl

theorem asText?_replace {place : Place} {v : Value} (h : place.binds v = false) :
    (replace g place v).asText? = v.asText? := by
  rw [replace_inside h]
  cases v <;> rfl

theorem isSelect_replace {place : Place} {v : Value} (h : place.binds v = false) :
    Join.isSelect (replace g place v) = Join.isSelect v := by
  rw [replace_inside h]
  cases v <;> rfl

/-! ## Plain values -/

/-- Whether the value is bound as it is: not SQL text, and no subquery. -/
def isPlain (v : Value) : Bool := !v.isRaw && v.subquery?.isNone

/-- Apply `f` to a plain value. -/
def onPlain (f : Value → Value) (v : Value) : Value := if v.isPlain then f v else v

/-- A replacement of plain values by plain values, and of no other value. -/
structure KeepsPlain (g : Value → Value) : Prop where
  plain : ∀ v, v.isPlain = true → (g v).isPlain = true
  kept : ∀ v, v.isPlain = false → g v = v

theorem keepsPlain_onPlain {f : Value → Value} (h : ∀ v, v.isPlain = true → (f v).isPlain = true) :
    KeepsPlain (onPlain f) where
  plain v hv := by
    rw [onPlain, if_pos hv]
    exact h v hv
  kept v hv := by rw [onPlain, if_neg (Bool.eq_false_iff.1 hv)]

namespace KeepsPlain

theorem raw (hg : KeepsPlain g) {v : Value} (h : v.isRaw = true) : g v = v := by
  refine hg.kept v ?_
  rw [isPlain, h]
  rfl

theorem isRaw_eq (hg : KeepsPlain g) (v : Value) : (g v).isRaw = v.isRaw := by
  cases hv : v.isPlain with
  | false => rw [hg.kept v hv]
  | true =>
    have hv' := hg.plain v hv
    rw [isPlain, Bool.and_eq_true, Bool.not_eq_true'] at hv hv'
    rw [hv.1, hv'.1]

theorem subquery?_eq_none (hg : KeepsPlain g) {v : Value} (h : v.subquery? = none) :
    (g v).subquery? = none := by
  cases hv : v.isPlain with
  | false => rw [hg.kept v hv, h]
  | true =>
    have hv' := hg.plain v hv
    rw [isPlain, Bool.and_eq_true] at hv'
    exact Option.isNone_iff_eq_none.1 hv'.2

end KeepsPlain

/-! ## The values of a condition set -/

theorem listsParams_eq (place : Place) (v : Value) :
    listsParams place v = (place.lists v && (place.binds v || listsParamsInside place v)) := by
  cases v <;> rfl

theorem listsParamsAll_cons (place : Place) (v : Value) (rest : List Value) :
    listsParamsAll place (v :: rest) = (listsParams place v && listsParamsAll place rest) := rfl

theorem listsParamsEntries_cons (place : Place) (key v : Value) (rest : Entries) :
    listsParamsEntries place ((key, v) :: rest) =
      (listsParams (place.entry key) v && listsParamsEntries place rest) := rfl

theorem listsParamsFields_cons (place : Place) (places : List Place) (v : Value)
    (rest : List Value) :
    listsParamsFields (place :: places) (v :: rest) =
      (listsParams place v && listsParamsFields places rest) := rfl

theorem lists_of_listsParams {place : Place} {v : Value} (h : listsParams place v = true) :
    place.lists v = true := by
  rw [listsParams_eq, Bool.and_eq_true] at h
  exact h.1

theorem listsParams_inside {place : Place} {v : Value} (hb : place.binds v = false)
    (h : listsParams place v = true) : listsParamsInside place v = true := by
  rw [listsParams_eq, hb, Bool.false_or, Bool.and_eq_true] at h
  exact h.2

theorem listsParamsAll_iff {place : Place} {items : List Value} :
    listsParamsAll place items = true ↔ ∀ v ∈ items, listsParams place v = true := by
  induction items with
  | nil => exact iff_of_true rfl (List.forall_mem_nil _)
  | cons v rest ih => rw [listsParamsAll_cons, Bool.and_eq_true, List.forall_mem_cons, ih]

theorem listsParamsEntries_iff {place : Place} {entries : Entries} :
    listsParamsEntries place entries = true ↔
      ∀ e ∈ entries, listsParams (place.entry e.1) e.2 = true := by
  induction entries with
  | nil => exact iff_of_true rfl (List.forall_mem_nil _)
  | cons e rest ih =>
    obtain ⟨k, v⟩ := e
    rw [listsParamsEntries_cons, Bool.and_eq_true, List.forall_mem_cons, ih]

theorem listsParamsEntries_congr (p q : Place) (h : ∀ key, p.entry key = q.entry key)
    {entries : Entries} (hp : listsParamsEntries p entries = true) :
    listsParamsEntries q entries = true := by
  rw [listsParamsEntries_iff] at hp ⊢
  intro e he
  rw [← h]
  exact hp e he

end Value
end Querywright
