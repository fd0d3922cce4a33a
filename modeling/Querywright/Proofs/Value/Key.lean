/-
  Keys that are texts.

  * `Value.sameKey_asText?`: a key is the same as a text when it reads as that text.
  * `Entries.Distinct`: no two entries have the same key, as in every map.
  * `Entries.get?_perm`: the order of the entries does not matter to what a text key holds.
  * `Entries.has_eq_of_sameKeySet`: two maps whose key sets were found the same have the same keys.
-/
import Mathlib.Data.List.Nodup
import Mathlib.Data.List.Perm.Subperm
import Querywright.Value.Key

namespace Querywright

namespace Value

theorem sameKey_asText? {key : Value} {s : String} (hkey : key.asText? = some s) (k : Value) :
    k.sameKey key = (k.asText? == some s) := by
  cases key with
  | text t | keyword t =>
    cases hkey
    cases k with
    | text u | keyword u => exact Bool.beq_comm
    | _ => rfl
  | _ => cases hkey

theorem sameKey_text (k : Value) (s : String) :
    k.sameKey (.text s) = (k.asText? == some s) :=
  sameKey_asText? rfl k

/-- A text key is not the same as a key that is no text. -/
theorem sameKey_of_not_text {k key : Value} {s : String} (hk : k.asText? = some s)
    (hkey : key.asText? = none) : k.sameKey key = false := by
  cases k with
  | text t | keyword t =>
    change (key.asText? == some _) = false
    rw [hkey]
    rfl
  | _ => cases hk

end Value

namespace Entries

/-- No two entries have the same key. -/
def Distinct (entries : Entries) : Prop :=
  entries.keys.Pairwise fun a b => a.sameKey b = false

instance (entries : Entries) : Decidable entries.Distinct :=
  inferInstanceAs (Decidable (entries.keys.Pairwise fun a b => a.sameKey b = false))

/-- The keys that are texts. -/
def names (entries : Entries) : List String := entries.keys.filterMap Value.asText?

theorem Distinct.nodup_names {entries : Entries} (h : entries.Distinct) : entries.names.Nodup := by
  refine List.pairwise_filterMap.2 (h.imp fun {a b} hab s hs t ht => ?_)
  rintro rfl
  rw [Value.sameKey_asText? ht a, hs, beq_self_eq_true] at hab
  cases hab

variable {key : Value} {s : String}

theorem names_perm {a b : Entries} (h : a.Perm b) : a.names.Perm b.names :=
  (h.map Prod.fst).filterMap _

theorem mem_names {entries : Entries} :
    s ∈ entries.names ↔ ∃ e ∈ entries, e.1.asText? = some s := by
  rw [names, List.mem_filterMap]
  constructor
  · rintro ⟨k, hk, hs⟩
    obtain ⟨e, he, rfl⟩ := List.mem_map.1 hk
    exact ⟨e, he, hs⟩
  · rintro ⟨e, he, hs⟩
    exact ⟨e.1, List.mem_map_of_mem he, hs⟩

theorem get?_cons (key k v : Value) (rest : Entries) :
    Entries.get? key ((k, v) :: rest) = if k.sameKey key then some v else rest.get? key := rfl

/-- A text key holds the value of its only entry. -/
theorem get?_eq_some {entries : Entries} (hn : entries.names.Nodup) (hkey : key.asText? = some s)
    {v : Value} : entries.get? key = some v ↔ ∃ k, (k, v) ∈ entries ∧ k.asText? = some s := by
  induction entries with
  | nil => simp [get?]
  | cons e rest ih =>
    obtain ⟨k, w⟩ := e
    have hrest : (Entries.names rest).Nodup :=
      hn.sublist ((List.sublist_cons_self _ _).filterMap _)
    rw [get?_cons, Value.sameKey_asText? hkey]
    by_cases hk : k.asText? = some s
    · have hnot : s ∉ Entries.names rest := by
        rw [names, keys, List.map_cons, List.filterMap_cons_some hk, List.nodup_cons] at hn
        exact hn.1
      rw [hk, beq_self_eq_true, if_pos rfl, Option.some.injEq]
      constructor
      · rintro rfl
        exact ⟨k, List.mem_cons_self, hk⟩
      · rintro ⟨k', hmem, hk'⟩
        rcases List.mem_cons.1 hmem with heq | hmem
        · cases heq
          rfl
        · exact absurd (mem_names.2 ⟨_, hmem, hk'⟩) hnot
    · rw [beq_false_of_ne hk, if_neg Bool.false_ne_true, ih hrest]
      constructor
      · rintro ⟨k', hmem, hk'⟩
        exact ⟨k', List.mem_cons_of_mem _ hmem, hk'⟩
      · rintro ⟨k', hmem, hk'⟩
        rcases List.mem_cons.1 hmem with heq | hmem
        · cases heq
          exact absurd hk' hk
        · exact ⟨k', hmem, hk'⟩

/-- A text key holds the changed value where the change depends on the text alone. -/
theorem field?_map (change : Option String → Value → Value) (entries : Entries) (name : String) :
    Entries.field? name (entries.map fun e => (e.1, change e.1.asText? e.2))
      = (entries.field? name).map (change (some name)) := by
  induction entries with
  | nil => rfl
  | cons e rest ih =>
    obtain ⟨k, v⟩ := e
    rw [field?, field?] at ih ⊢
    rw [List.map_cons, get?_cons, get?_cons, ih, Value.sameKey_text]
    cases hk : k.asText? == some name with
    | false => rfl
    | true =>
      rw [beq_iff_eq] at hk
      dsimp only
      rw [hk]
      rfl

/-- The order of the entries does not matter. -/
theorem get?_perm {a b : Entries} (h : a.Perm b) (hn : a.names.Nodup)
    (hkey : key.asText? = some s) : a.get? key = b.get? key := by
  have hb : b.names.Nodup := (names_perm h).nodup_iff.1 hn
  refine Option.ext fun v => ?_
  rw [get?_eq_some hn hkey, get?_eq_some hb hkey]
  simp only [h.mem_iff]

/-! ## The same keys -/

theorem has_iff {entries : Entries} (hkey : key.asText? = some s) :
    entries.has key = true ↔ s ∈ entries.names := by
  rw [mem_names]
  induction entries with
  | nil => simp [has, get?]
  | cons e rest ih =>
    obtain ⟨k, v⟩ := e
    rw [has, get?_cons, Value.sameKey_asText? hkey, List.exists_mem_cons_iff]
    rw [has] at ih
    by_cases hk : k.asText? = some s
    · simp [hk]
    · rw [beq_false_of_ne hk, if_neg Bool.false_ne_true, ih]
      simp [hk]

/-- A map with text keys only. -/
def TextKeys (entries : Entries) : Prop := ∀ e ∈ entries, ∃ s, e.1.asText? = some s

theorem TextKeys.has_eq_false {entries : Entries} (h : entries.TextKeys)
    (hkey : key.asText? = none) : entries.has key = false := by
  induction entries with
  | nil => rfl
  | cons e rest ih =>
    obtain ⟨⟨s, hs⟩, hrest⟩ := List.forall_mem_cons.1 h
    rw [has, get?_cons, Value.sameKey_of_not_text hs hkey, if_neg Bool.false_ne_true]
    exact ih hrest

theorem TextKeys.length_names {entries : Entries} (h : entries.TextKeys) :
    entries.names.length = entries.length := by
  induction entries with
  | nil => rfl
  | cons e rest ih =>
    obtain ⟨⟨s, hs⟩, hrest⟩ := List.forall_mem_cons.1 h
    rw [names, keys, List.map_cons, List.filterMap_cons_some hs, List.length_cons, List.length_cons]
    exact congrArg (· + 1) (ih hrest)

theorem sameKeySet_iff {a b : Entries} :
    a.sameKeySet b = true ↔ a.length = b.length ∧ ∀ e ∈ a, b.has e.1 = true := by
  rw [sameKeySet, Bool.and_eq_true, beq_iff_eq, List.all_eq_true]

theorem sameKeySet_perm {a a' b : Entries} (h : a.Perm a') : a.sameKeySet b = a'.sameKeySet b := by
  rw [sameKeySet, sameKeySet, h.length_eq, h.all_eq]

/-- The keys of a map are texts if they are all among texts. -/
theorem TextKeys.of_sameKeySet {a b : Entries} (hb : b.TextKeys) (h : a.sameKeySet b = true) :
    a.TextKeys := by
  intro e he
  have hhas := (sameKeySet_iff.1 h).2 e he
  cases hs : e.1.asText? with
  | some s => exact ⟨s, rfl⟩
  | none =>
    rw [hb.has_eq_false hs] at hhas
    cases hhas

theorem has_eq_of_sameKeySet {a b : Entries} (ha : a.Distinct) (hb : b.TextKeys)
    (h : a.sameKeySet b = true) (key : Value) : a.has key = b.has key := by
  have htexts : a.TextKeys := hb.of_sameKeySet h
  obtain ⟨hlength, hall⟩ := sameKeySet_iff.1 h
  have hsubset : a.names ⊆ b.names := by
    intro s hs
    obtain ⟨e, he, hkey⟩ := mem_names.1 hs
    exact (has_iff hkey).1 (hall e he)
  -- as many different names, all of them among the others
  have hnames : b.names.length = a.names.length := by
    rw [htexts.length_names, hb.length_names, hlength]
  have hperm : a.names.Perm b.names :=
    (List.subperm_of_subset ha.nodup_names hsubset).perm_of_length_le (Nat.le_of_eq hnames)
  cases hkey : key.asText? with
  | none => rw [htexts.has_eq_false hkey, hb.has_eq_false hkey]
  | some s => rw [Bool.eq_iff_iff, has_iff hkey, has_iff hkey, hperm.mem_iff]

end Entries
end Querywright
