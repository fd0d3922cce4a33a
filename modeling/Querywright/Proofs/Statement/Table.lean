/-
  The rows of an insert as a table.

  * `rowMaps_eq_ok`, `valuesAt_eq_ok`, `align_eq_ok`, `ofData_eq_ok`: what rows that were accepted
    are made of. Each row has a value at every column of the first.
  * `Reordered`: data whose rows after the first may have their keys in another order, which gives
    the same table (`ofData_reordered`).
  * `ofData_refused`: a row that is no map, or that has other keys than the first, is refused.
-/
import Mathlib.Data.List.Forall2
import Querywright.Proofs.Select.Fragments
import Querywright.Proofs.Value.Key
import Querywright.Statement.Insert

namespace Querywright

theorem Value.texts_eq_ok {values : List Value} {texts : List String} :
    Value.texts values = .ok texts ↔ values.map Value.asText? = texts.map some := by
  constructor
  · intro h
    induction values generalizing texts with
    | nil =>
      cases h
      rfl
    | cons v rest ih =>
      obtain ⟨t, more, ht, hmore, rfl⟩ := Filter.texts_cons_eq_ok h
      rw [List.map_cons, List.map_cons, ht, ih hmore]
  · intro h
    induction values generalizing texts with
    | nil =>
      cases texts with
      | nil => rfl
      | cons t texts => cases h
    | cons v rest ih =>
      cases texts with
      | nil => cases h
      | cons t texts =>
        obtain ⟨ht, hrest⟩ := List.cons.inj h
        rw [Value.texts, ht, ih hrest]

namespace Entries

theorem textKeys_of_texts {entries : Entries} {names : List String}
    (h : Value.texts entries.keys = .ok names) : entries.TextKeys := by
  rw [Value.texts_eq_ok] at h
  intro e he
  have hmem : e.1.asText? ∈ entries.keys.map Value.asText? :=
    List.mem_map_of_mem (List.mem_map_of_mem he)
  rw [h] at hmem
  obtain ⟨s, -, hs⟩ := List.mem_map.1 hmem
  exact ⟨s, hs.symm⟩

theorem TextKeys.exists_texts {entries : Entries} (h : entries.TextKeys) :
    ∃ names, Value.texts entries.keys = .ok names := by
  induction entries with
  | nil => exact ⟨[], rfl⟩
  | cons e rest ih =>
    obtain ⟨⟨s, hs⟩, hrest⟩ := List.forall_mem_cons.1 h
    obtain ⟨names, hnames⟩ := ih hrest
    refine ⟨s :: names, Value.texts_eq_ok.2 ?_⟩
    rw [keys, List.map_cons, List.map_cons, List.map_cons, hs]
    exact congrArg (some s :: ·) (Value.texts_eq_ok.1 hnames)

end Entries

namespace Statement.Table

/-! ## Rows that are maps -/

theorem rowMaps_eq_ok {position : Nat} {rows : List Value} {maps : List Entries} :
    rowMaps position rows = .ok maps ↔ rows = maps.map .map := by
  induction rows generalizing position maps with
  | nil => cases maps <;> simp [rowMaps]
  | cons v rest ih =>
    cases v with
    | map entries =>
      rw [rowMaps, map_eq_ok]
      simp only [ih]
      constructor
      · rintro ⟨more, rfl, rfl⟩
        rfl
      · intro h
        cases maps with
        | nil => cases h
        | cons first more =>
          rw [List.map_cons] at h
          cases h
          exact ⟨more, rfl, rfl⟩
    | _ => cases maps <;> simp [rowMaps]

theorem maps_inj {maps maps' : List Entries} (h : maps.map Value.map = maps'.map Value.map) :
    maps = maps' :=
  (List.map_inj_right fun _ _ => Value.map.inj).1 h

theorem exists_maps {rows : List Value} (h : ∀ row ∈ rows, row.asMap? ≠ none) :
    ∃ maps : List Entries, rows = maps.map .map := by
  induction rows with
  | nil => exact ⟨[], rfl⟩
  | cons v rest ih =>
    obtain ⟨hv, hrest⟩ := List.forall_mem_cons.1 h
    obtain ⟨maps, rfl⟩ := ih hrest
    cases v with
    | map entries => exact ⟨entries :: maps, rfl⟩
    | _ => exact absurd rfl hv

theorem rowMaps_refused (position : Nat) {rows : List Value} (h : ∃ row ∈ rows, row.asMap? = none) :
    ∃ place got, rowMaps position rows = .error (.shape (.rowNotMap place got)) := by
  induction rows generalizing position with
  | nil =>
    obtain ⟨row, hrow, -⟩ := h
    cases hrow
  | cons v rest ih =>
    cases v with
    | map entries =>
      rw [List.exists_mem_cons_iff] at h
      obtain ⟨place, got, hrest⟩ := ih (position + 1) (h.resolve_left nofun)
      exact ⟨place, got, by rw [rowMaps, hrest]; rfl⟩
    | _ => exact ⟨_, _, rfl⟩

/-! ## Values at the columns -/

/-- The values of a row at the columns, one for each. -/
abbrev HoldsAt (row : Entries) (columns values : List Value) : Prop :=
  List.Forall₂ (fun column v => row.get? column = some v) columns values

theorem valuesAt_eq_ok {row : Entries} {columns values : List Value} :
    valuesAt row columns = .ok values ↔ HoldsAt row columns values := by
  induction columns generalizing values with
  | nil => cases values <;> simp [valuesAt]
  | cons column rest ih =>
    rw [valuesAt]
    cases hv : row.get? column with
    | none => cases values <;> simp [hv]
    | some v =>
      dsimp only
      rw [map_eq_ok]
      simp only [ih]
      constructor
      · rintro ⟨more, hmore, rfl⟩
        exact .cons hv hmore
      · intro h
        cases h with
        | cons hw hmore =>
          rw [hv] at hw
          cases hw
          exact ⟨_, hmore, rfl⟩

theorem exists_valuesAt {row : Entries} {columns : List Value}
    (h : ∀ column ∈ columns, row.has column = true) :
    ∃ values, valuesAt row columns = .ok values := by
  induction columns with
  | nil => exact ⟨[], rfl⟩
  | cons column rest ih =>
    obtain ⟨hcolumn, hrest⟩ := List.forall_mem_cons.1 h
    obtain ⟨v, hv⟩ := Option.isSome_iff_exists.1 hcolumn
    obtain ⟨values, hvalues⟩ := ih hrest
    exact ⟨v :: values, by rw [valuesAt, hv, hvalues]; rfl⟩

/-- The first row holds its own values at its keys. -/
theorem holdsAt_keys {row : Entries} (hd : row.Distinct) (ht : row.TextKeys) :
    HoldsAt row row.keys row.values := by
  rw [HoldsAt, Entries.keys, Entries.values, List.forall₂_map_left_iff, List.forall₂_map_right_iff,
    List.forall₂_same]
  intro e he
  obtain ⟨s, hs⟩ := ht e he
  exact (Entries.get?_eq_some hd.nodup_names hs).2 ⟨e.1, he, hs⟩

/-! ## The rows after the first -/

theorem align_cons_eq_ok {first row : Entries} {position : Nat} {rest : List Entries}
    {values : List (List Value)} :
    align first position (row :: rest) = .ok values ↔
      row.sameKeySet first = true ∧ ∃ here more, HoldsAt row first.keys here ∧
        align first (position + 1) rest = .ok more ∧ values = here :: more := by
  rw [align]
  split
  · rename_i hsame
    simp only [bind_eq_ok, pure_eq_ok, valuesAt_eq_ok, hsame, true_and]
    constructor
    · rintro ⟨here, hhere, more, hmore, rfl⟩
      exact ⟨here, more, hhere, hmore, rfl⟩
    · rintro ⟨here, more, hhere, hmore, rfl⟩
      exact ⟨here, hhere, more, hmore, rfl⟩
  · rename_i hsame
    simp [hsame]

theorem align_eq_ok {first : Entries} {position : Nat} {rows : List Entries}
    {values : List (List Value)} (h : align first position rows = .ok values) :
    List.Forall₂ (fun row here => HoldsAt row first.keys here) rows values := by
  induction rows generalizing position values with
  | nil =>
    cases h
    exact .nil
  | cons row rest ih =>
    obtain ⟨-, here, more, hhere, hmore, rfl⟩ := align_cons_eq_ok.1 h
    exact .cons hhere (ih hmore)

/-- The order of the keys of these rows does not matter. -/
theorem align_perm {first : Entries} (hf : first.TextKeys) {position : Nat}
    {rows rows' : List Entries} {values : List (List Value)} (hd : ∀ row ∈ rows, row.Distinct)
    (hp : List.Forall₂ List.Perm rows rows') (h : align first position rows = .ok values) :
    align first position rows' = .ok values := by
  induction hp generalizing position values with
  | nil => exact h
  | @cons row row' rest rest' hrow _ ih =>
    obtain ⟨hd, hrest⟩ := List.forall_mem_cons.1 hd
    obtain ⟨hsame, here, more, hhere, hmore, rfl⟩ := align_cons_eq_ok.1 h
    have hsame' : row'.sameKeySet first = true := Entries.sameKeySet_perm hrow ▸ hsame
    have hhere' : HoldsAt row' first.keys here := by
      -- only at the columns, which are texts, do both rows surely hold the same
      have hkeys := (List.forall₂_and_left first.keys here).2 ⟨fun _ hcolumn => hcolumn, hhere⟩
      refine hkeys.imp fun column v ⟨hcolumn, hv⟩ => ?_
      obtain ⟨e, he, rfl⟩ := List.mem_map.1 hcolumn
      obtain ⟨s, hs⟩ := hf e he
      rw [← Entries.get?_perm hrow hd.nodup_names hs, hv]
    exact align_cons_eq_ok.2 ⟨hsame', here, more, hhere', ih hrest hmore, rfl⟩

theorem align_refused {first : Entries} (hf : first.TextKeys) (position : Nat)
    {rows : List Entries} (hd : ∀ row ∈ rows, row.Distinct)
    (h : ∃ row ∈ rows, ∃ key, row.has key ≠ first.has key) :
    ∃ place names, align first position rows = .error (.shape (.rowColumns place names)) := by
  induction rows generalizing position with
  | nil =>
    obtain ⟨row, hrow, -⟩ := h
    cases hrow
  | cons row rest ih =>
    obtain ⟨hd, hrest⟩ := List.forall_mem_cons.1 hd
    rw [align]
    split
    · rename_i hsame
      have hhas := Entries.has_eq_of_sameKeySet hd hf hsame
      rw [List.exists_mem_cons_iff] at h
      obtain ⟨place, names, hmore⟩ := ih (position + 1) hrest
        (h.resolve_left fun ⟨key, hkey⟩ => hkey (hhas key))
      -- a row that fits has a value at every column, so the fault is one of a later row
      have hall : ∀ column ∈ first.keys, row.has column = true := by
        intro column hcolumn
        obtain ⟨e, he, rfl⟩ := List.mem_map.1 hcolumn
        obtain ⟨s, hs⟩ := hf e he
        rw [hhas, Entries.has_iff hs]
        exact Entries.mem_names.2 ⟨e, he, hs⟩
      obtain ⟨values, hvalues⟩ := exists_valuesAt hall
      exact ⟨place, names, by rw [hvalues, ok_bind, hmore]; rfl⟩
    · obtain ⟨names, hnames⟩ := hf.exists_texts
      exact ⟨position, names, by rw [columnFault, hnames]⟩

/-! ## The table -/

theorem ofData_eq_ok {data : Value} {t : Table} :
    ofData data = .ok t ↔ ∃ (first : Entries) (rest : List Entries) (values : List (List Value)),
      rowValues data = .ok ((first :: rest).map .map) ∧ first ≠ [] ∧
        align first 1 rest = .ok values ∧ t = ⟨first.keys, first.values :: values⟩ := by
  rw [ofData]
  simp only [bind_eq_ok]
  constructor
  · rintro ⟨rows, hrows, maps, hmaps, h⟩
    obtain rfl := rowMaps_eq_ok.1 hmaps
    cases maps with
    | nil => cases h
    | cons first rest =>
      dsimp only at h
      split at h
      · cases h
      · rename_i hempty
        simp only [bind_eq_ok, pure_eq_ok] at h
        obtain ⟨values, hvalues, rfl⟩ := h
        exact ⟨first, rest, values, hrows, fun hnil => hempty (hnil ▸ rfl), hvalues, rfl⟩
  · rintro ⟨first, rest, values, hrows, hempty, hvalues, rfl⟩
    refine ⟨_, hrows, _, rowMaps_eq_ok.2 rfl, ?_⟩
    dsimp only
    rw [if_neg (by rwa [List.isEmpty_iff]), hvalues]
    rfl

/-- Data with the same first row, and the same other rows up to the order of their keys. -/
inductive Reordered : Value → Value → Prop where
  | map (entries : Entries) : Reordered (.map entries) (.map entries)
  | list {first : Entries} {rest rest' : List Entries} (h : List.Forall₂ List.Perm rest rest') :
    Reordered (.list ((first :: rest).map .map)) (.list ((first :: rest').map .map))
  | tuple {first : Entries} {rest rest' : List Entries} (h : List.Forall₂ List.Perm rest rest') :
    Reordered (.tuple ((first :: rest).map .map)) (.tuple ((first :: rest').map .map))

theorem Reordered.rowValues {data data' : Value} (h : Reordered data data') :
    ∃ (first : Entries) (rest rest' : List Entries),
      rowValues data = .ok ((first :: rest).map .map) ∧
      rowValues data' = .ok ((first :: rest').map .map) ∧ List.Forall₂ List.Perm rest rest' := by
  cases h with
  | map entries => exact ⟨entries, [], [], rfl, rfl, .nil⟩
  | list h | tuple h => exact ⟨_, _, _, rfl, rfl, h⟩

/-- A single row stays a single row. -/
theorem Reordered.isSome_asMap? {data data' : Value} (h : Reordered data data') :
    data'.asMap?.isSome = data.asMap?.isSome := by
  cases h <;> rfl

theorem ofData_reordered {data data' : Value} (h : Reordered data data') {t : Table}
    {columns : String} {rows : List Value} (hrows : Table.rowValues data = .ok rows)
    (hd : ∀ entries, Value.map entries ∈ rows → Entries.Distinct entries)
    (ht : ofData data = .ok t) (hcolumns : t.columnText = .ok columns) :
    ofData data' = .ok t := by
  obtain ⟨first, rest, values, hdata, hempty, hvalues, rfl⟩ := ofData_eq_ok.1 ht
  obtain ⟨first', rest', rest'', hfirst, hdata', hperm⟩ := h.rowValues
  rw [hdata] at hfirst hrows
  cases hrows
  obtain ⟨rfl, rfl⟩ := List.cons.inj (maps_inj (Except.ok.inj hfirst))
  obtain ⟨names, hnames, -⟩ := map_eq_ok.1 hcolumns
  have hvalues' := align_perm (Entries.textKeys_of_texts hnames)
    (fun row hrow => hd row (List.mem_map_of_mem (List.mem_cons_of_mem _ hrow))) hperm hvalues
  exact ofData_eq_ok.2 ⟨first, rest'', values, hdata', hempty, hvalues', rfl⟩

/-- Whether a row cannot stand beside the first: it is no map, or has other keys. -/
def Strays (first : Entries) (row : Value) : Prop :=
  row.asMap? = none ∨
    ∃ (entries : Entries) (key : Value), row = .map entries ∧ entries.has key ≠ first.has key

theorem ofData_refused {data : Value} {first : Entries} {rest : List Value}
    (hrows : rowValues data = .ok (.map first :: rest)) (hempty : first ≠ [])
    (hf : first.TextKeys)
    (hd : ∀ entries, Value.map entries ∈ Value.map first :: rest → Entries.Distinct entries)
    (h : ∃ row ∈ rest, Strays first row) : ∃ fault, ofData data = .error (.shape fault) := by
  rw [ofData, hrows, ok_bind]
  by_cases hno : ∃ row ∈ rest, row.asMap? = none
  · obtain ⟨row, hrow, hnone⟩ := hno
    obtain ⟨place, got, hmaps⟩ := rowMaps_refused 0
      ⟨row, List.mem_cons_of_mem (Value.map first) hrow, hnone⟩
    rw [hmaps]
    exact ⟨_, rfl⟩
  · have hall : ∀ row ∈ rest, row.asMap? ≠ none := fun row hrow hnone => hno ⟨row, hrow, hnone⟩
    obtain ⟨maps, rfl⟩ := exists_maps hall
    have hmaps : rowMaps 0 (.map first :: maps.map .map) = .ok (first :: maps) :=
      rowMaps_eq_ok.2 rfl
    have hdistinct : ∀ row ∈ maps, row.Distinct := fun row hrow =>
      hd row (List.mem_cons_of_mem _ (List.mem_map_of_mem hrow))
    have hkeys : ∃ row ∈ maps, ∃ key, row.has key ≠ first.has key := by
      obtain ⟨v, hv, hstrays⟩ := h
      obtain ⟨entries, key, rfl, hkey⟩ := hstrays.resolve_left (hall v hv)
      obtain ⟨row, hrow, heq⟩ := List.mem_map.1 hv
      cases heq
      exact ⟨_, hrow, key, hkey⟩
    obtain ⟨place, names, halign⟩ := align_refused hf 1 hdistinct hkeys
    refine ⟨.rowColumns place names, ?_⟩
    rw [hmaps, ok_bind]
    dsimp only
    rw [if_neg (by rwa [List.isEmpty_iff]), halign]
    rfl

end Statement.Table
end Querywright
