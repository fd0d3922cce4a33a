/-
  Values and their placeholders in VALUES and SET.

  * `Placed`: each raw value is its own text, and the placeholder of every other value has the
    index of that value among the arguments.
  * `indexes start n` are the `n` indexes after `start`; `cells_chain` and `assignments_reads`
    say that the placeholders take these, `rows_eq_ok` that the rows of VALUES are read as the
    cells of all values one after another.
-/
import Querywright.Clause.Row
import Querywright.Proofs.Clause.Texts
import Querywright.Proofs.Placeholder.Written

namespace Querywright.Clause

open Placeholder

/-! ## Consecutive indexes -/

/-- The `n` indexes after `start`. -/
def indexes (start : Int) (n : Nat) : List Int := (List.range n).map fun (k : Nat) => start + k + 1

theorem indexes_zero (start : Int) : indexes start 0 = [] := rfl

theorem indexes_succ (start : Int) (n : Nat) :
    indexes start (n + 1) = (start + 1) :: indexes (start + 1) n := by
  rw [indexes, indexes, List.range_succ_eq_map, List.map_cons, List.map_map]
  rw [show start + ((0 : Nat) : Int) + 1 = start + 1 by omega]
  refine congrArg _ (List.map_congr_left fun k _ => ?_)
  simp only [Function.comp, Nat.succ_eq_add_one, Int.natCast_add]
  omega

theorem indexes_add (start : Int) (m n : Nat) :
    indexes start (m + n) = indexes start m ++ indexes (start + m) n := by
  induction m generalizing start with
  | zero => rw [Nat.zero_add, indexes_zero, List.nil_append, Int.natCast_zero, Int.add_zero]
  | succ m ih =>
    rw [Nat.succ_add, indexes_succ, indexes_succ, ih, List.cons_append]
    rw [Int.natCast_add, Int.add_assoc, Int.add_comm (1 : Int), Int.natCast_one]

theorem le_of_mem_indexes {start : Int} {n : Nat} {i : Int} (h : i ∈ indexes start n) :
    start < i ∧ i ≤ start + n := by
  obtain ⟨k, hk, rfl⟩ := List.mem_map.1 h
  rw [List.mem_range] at hk
  omega

/-- Consecutive indexes reach their last one. -/
theorem highest_indexes {p start : Int} (hp : p ≤ start) (n : Nat) :
    max start (highest p (indexes start n)) = start + n := by
  cases n with
  | zero =>
    rw [indexes_zero, show highest p [] = p from rfl]
    omega
  | succ n =>
    have hle : highest p (indexes start (n + 1)) ≤ start + (n + 1 : Nat) :=
      highest_le (by omega) fun i hi => (le_of_mem_indexes hi).2
    have hmem : start + (n : Int) + 1 ∈ indexes start (n + 1) :=
      List.mem_map.2 ⟨n, List.mem_range.2 (Nat.lt_succ_self n), rfl⟩
    have hlast := le_highest_of_mem (p := p) hmem
    omega

theorem highest_indexes_self (p : Int) (n : Nat) : highest p (indexes p n) = p + n := by
  have hlast := highest_indexes (Int.le_refl p) n
  have hle := le_highest p (indexes p n)
  omega

/-! ## Values that are bound -/

theorem countBound_append (xs ys : List Value) :
    countBound (xs ++ ys) = countBound xs + countBound ys := by
  simp only [countBound, boundValues, List.filter_append, List.length_append]

theorem boundValues_cons_bound {v : Value} (h : v.isRaw = false) (vs : List Value) :
    boundValues (v :: vs) = v :: boundValues vs := by
  simp [boundValues, h]

theorem boundValues_cons_raw {v : Value} (h : v.isRaw = true) (vs : List Value) :
    boundValues (v :: vs) = boundValues vs := by
  simp [boundValues, h]

theorem countBound_cons_bound {v : Value} (h : v.isRaw = false) (vs : List Value) :
    countBound (v :: vs) = countBound vs + 1 := by
  rw [countBound, boundValues_cons_bound h, List.length_cons, countBound]

theorem countBound_cons_raw {v : Value} (h : v.isRaw = true) (vs : List Value) :
    countBound (v :: vs) = countBound vs := by
  rw [countBound, boundValues_cons_raw h, countBound]

/-- A bound value stands among the bound values behind those before it. -/
theorem getElem?_boundValues {values : List Value} {j : Nat} {v : Value}
    (hv : values[j]? = some v) (hb : v.isRaw = false) :
    (boundValues values)[countBound (values.take j)]? = some v := by
  obtain ⟨hj, rfl⟩ := List.getElem?_eq_some_iff.1 hv
  have hsplit : boundValues values
      = boundValues (values.take j) ++ values[j] :: boundValues (values.drop (j + 1)) := by
    have hdrop : values = values.take j ++ values[j] :: values.drop (j + 1) := by
      rw [← List.drop_eq_getElem_cons hj, List.take_append_drop]
    conv => lhs; rw [hdrop]
    rw [boundValues, List.filter_append, List.filter_cons, hb]
    rfl
  rw [hsplit, countBound, List.getElem?_append_right (Nat.le_refl _), Nat.sub_self,
    List.getElem?_cons_zero]

/-- The index of the value at a position, if it is bound and `start` values are bound before. -/
def indexAt (start : Nat) (values : List Value) (j : Nat) : Nat :=
  start + countBound (values.take j) + 1

/-- Cells of values that are bound to arguments: raw SQL stands for itself, and the placeholder of
any other value names the argument that is the value. -/
structure Placed (start : Nat) (values : List Value) (cells : List String)
    (arguments : List Value) : Prop where
  length : cells.length = values.length
  raw : ∀ (j : Nat) (content : Value), values[j]? = some (.raw content) → cells[j]? = some content.display
  bound : ∀ (j : Nat) (v : Value), values[j]? = some v → v.isRaw = false →
    cells[j]? = some ("?" ++ toString (indexAt start values j : Int)) ∧
      arguments[indexAt start values j - 1]? = some v

/-! ## Cells -/

theorem mark_eq_ok {n : Nat} {t : String} :
    mark n = .ok t ↔ tooLong n = false ∧ t = "?" ++ toString (n : Int) := by
  unfold mark
  cases h : tooLong n with
  | true => simp
  | false => simp [eq_comm]

theorem cells_raw_eq_ok {start : Int} {content : Value} {rest : List Value} {cs : List String} :
    cells start (.raw content :: rest) = .ok cs ↔
      ∃ more, cells start rest = .ok more ∧ cs = content.display :: more := by
  rw [cells, bind_eq_ok]
  simp only [pure_eq_ok]
  constructor
  · rintro ⟨more, hmore, rfl⟩
    exact ⟨more, hmore, rfl⟩
  · rintro ⟨more, hmore, rfl⟩
    exact ⟨more, hmore, rfl⟩

theorem cells_bound_eq_ok {start : Nat} {v : Value} (hv : v.isRaw = false) {rest : List Value}
    {cs : List String} :
    cells start (v :: rest) = .ok cs ↔
      tooLong (start + 1 : Nat) = false ∧ ∃ more, cells (start + 1 : Nat) rest = .ok more ∧
        cs = ("?" ++ toString ((start + 1 : Nat) : Int)) :: more := by
  have hcells : cells start (v :: rest) = do
      let first ← mark (start + 1 : Nat)
      return first :: (← cells (start + 1 : Nat) rest) := by
    rw [cells]
    · rfl
    · rintro content rfl
      cases hv
  rw [hcells, bind_eq_ok]
  simp only [bind_eq_ok, pure_eq_ok, mark_eq_ok]
  constructor
  · rintro ⟨_, ⟨hlong, rfl⟩, more, hmore, rfl⟩
    exact ⟨hlong, more, hmore, rfl⟩
  · rintro ⟨hlong, more, hmore, rfl⟩
    exact ⟨_, ⟨hlong, rfl⟩, more, hmore, rfl⟩

theorem cells_append_eq_ok {start : Nat} {xs ys : List Value} {cs ds : List String}
    (hx : cells start xs = .ok cs) (hy : cells (start + countBound xs : Nat) ys = .ok ds) :
    cells start (xs ++ ys) = .ok (cs ++ ds) := by
  induction xs generalizing start cs with
  | nil =>
    cases hx
    exact hy
  | cons x xs ih =>
    cases hr : x.isRaw with
    | true =>
      cases x with
      | raw content =>
        obtain ⟨more, hmore, rfl⟩ := cells_raw_eq_ok.1 hx
        rw [countBound_cons_raw hr] at hy
        exact cells_raw_eq_ok.2 ⟨more ++ ds, ih hmore hy, rfl⟩
      | _ => cases hr
    | false =>
      obtain ⟨hlong, more, hmore, rfl⟩ := (cells_bound_eq_ok hr).1 hx
      rw [countBound_cons_bound hr, Nat.add_comm (countBound xs), ← Nat.add_assoc] at hy
      exact (cells_bound_eq_ok hr).2 ⟨hlong, more ++ ds, ih hmore hy, rfl⟩

/-- Each cell is the raw text, or the placeholder of the value's index. -/
theorem getElem?_cells {start : Nat} {values : List Value} {cs : List String}
    (h : cells start values = .ok cs) :
    cs.length = values.length ∧ ∀ (j : Nat) (v : Value), values[j]? = some v →
      cs[j]? = some (match v with
        | .raw content => content.display
        | _ => "?" ++ toString (indexAt start values j : Int)) := by
  induction values generalizing start cs with
  | nil =>
    cases h
    exact ⟨rfl, fun j v hv => by cases hv⟩
  | cons x xs ih =>
    cases hr : x.isRaw with
    | true =>
      cases x with
      | raw content =>
        obtain ⟨more, hmore, rfl⟩ := cells_raw_eq_ok.1 h
        obtain ⟨hlength, hcells⟩ := ih hmore
        refine ⟨congrArg (· + 1) hlength, fun j v hv => ?_⟩
        cases j with
        | zero =>
          cases hv
          rfl
        | succ j =>
          rw [List.getElem?_cons_succ] at hv ⊢
          rw [hcells j v hv, indexAt, indexAt, List.take_succ_cons, countBound_cons_raw hr]
      | _ => cases hr
    | false =>
      obtain ⟨_, more, hmore, rfl⟩ := (cells_bound_eq_ok hr).1 h
      obtain ⟨hlength, hcells⟩ := ih hmore
      refine ⟨congrArg (· + 1) hlength, fun j v hv => ?_⟩
      cases j with
      | zero =>
        cases hv
        cases x <;> first | rfl | cases hr
      | succ j =>
        rw [List.getElem?_cons_succ] at hv ⊢
        have hindex : indexAt (start + 1) xs j = indexAt start (x :: xs) (j + 1) := by
          rw [indexAt, indexAt, List.take_succ_cons, countBound_cons_bound hr]
          omega
        rw [hcells j v hv, hindex]

/-- Cells are placed in the values that are bound before them and the values that they bind. -/
theorem placed_of_cells (before after : List Value) {values : List Value} {cs : List String}
    (h : cells before.length values = .ok cs) :
    Placed before.length values cs (before ++ boundValues values ++ after) := by
  obtain ⟨hlength, hcells⟩ := getElem?_cells h
  refine ⟨hlength, fun j content hv => hcells j _ hv, fun j v hv hb => ⟨?_, ?_⟩⟩
  · rw [hcells j v hv]
    cases v <;> first | rfl | cases hb
  · have hbound := getElem?_boundValues hv hb
    have hlt := (List.getElem?_eq_some_iff.1 hbound).1
    have hindex : indexAt before.length values j - 1
        = before.length + countBound (values.take j) := rfl
    rw [hindex, List.append_assoc, List.getElem?_append_right (Nat.le_add_right _ _),
      Nat.add_sub_cancel_left, List.getElem?_append_left hlt]
    exact hbound

/-! ## Reading the cells -/

/-- The texts of the raw values. -/
def rawTexts (values : List Value) : List String :=
  values.filterMap fun
    | .raw content => some content.display
    | _ => none

theorem forall_mem_rawTexts_cons {P : String → Prop} {v : Value} {vs : List Value}
    (h : ∀ t ∈ rawTexts (v :: vs), P t) :
    (∀ content, v = .raw content → P content.display) ∧ ∀ t ∈ rawTexts vs, P t := by
  cases v with
  | raw content =>
    have h : ∀ t ∈ content.display :: rawTexts vs, P t := h
    rw [List.forall_mem_cons] at h
    exact ⟨fun c hc => by cases hc; exact h.1, h.2⟩
  | _ => exact ⟨nofun, h⟩

/-- Texts that end in the cells of values, one after another. -/
theorem cells_chain {start : Nat} {values : List Value} {cs : List String}
    (h : cells start values = .ok cs) (hraw : ∀ t ∈ rawTexts values, Plain t)
    {leads : List String} (hleads : ∀ t ∈ leads, Plain t) (hlength : leads.length = cs.length)
    (p : Int) :
    Chain p (List.zipWith (· ++ ·) leads cs) (indexes start (countBound values)) := by
  induction values generalizing start cs leads p with
  | nil =>
    cases h
    rw [List.zipWith_nil_right]
    exact .nil p
  | cons v vs ih =>
    obtain ⟨hv, hvs⟩ := forall_mem_rawTexts_cons hraw
    cases leads with
    | nil =>
      have := (getElem?_cells h).1
      simp only [List.length_nil, List.length_cons] at hlength this
      omega
    | cons lead leads =>
      obtain ⟨hlead, hleads⟩ := List.forall_mem_cons.1 hleads
      cases hr : v.isRaw with
      | true =>
        cases v with
        | raw content =>
          obtain ⟨more, hmore, rfl⟩ := cells_raw_eq_ok.1 h
          rw [countBound_cons_raw hr, List.zipWith_cons_cons]
          have hcell := (hlead.append (hv content rfl)).reads p
          exact .cons hcell (ih hmore hvs hleads (Nat.succ.inj hlength) _)
        | _ => cases hr
      | false =>
        obtain ⟨hlong, more, hmore, rfl⟩ := (cells_bound_eq_ok hr).1 h
        rw [countBound_cons_bound hr, List.zipWith_cons_cons, indexes_succ]
        have hcell := hlead.append_reads (reads_written hlong p)
        have hrest := ih hmore hvs hleads (Nat.succ.inj hlength) (highest p [((start + 1 : Nat) : Int)])
        exact .cons hcell hrest

theorem commas_reads {p : Int} {texts : List String} {is : List Int} (h : Chain p texts is) :
    Reads p (Value.commas texts) is :=
  h.intercalate (plain_of_not_mem (by decide) (by decide)) (c := ',') rfl (by decide)

/-- The columns of an assignment with what stands before the value. -/
def assigned (columns : List Value) : List String :=
  columns.map fun column => column.display ++ " = "

theorem assignmentsOf_eq (columns : List Value) (cs : List String) :
    assignmentsOf columns cs = Value.commas (List.zipWith (· ++ ·) (assigned columns) cs) := by
  rw [assignmentsOf, assigned, List.zipWith_map_left]

/-- Assignments take the indexes of their bound values, whatever was bound before. -/
theorem assignments_reads {data : Entries} {start : Nat} {text : String}
    (h : assignments data start = .ok text)
    (hcolumns : ∀ column ∈ data.keys, Plain column.display)
    (hraw : ∀ t ∈ rawTexts data.values, Plain t) (p : Int) :
    Reads p text (indexes start (countBound data.values)) := by
  have hequals : Plain " = " := plain_of_not_mem (by decide) (by decide)
  rw [assignments, bind_eq_ok] at h
  obtain ⟨cs, hcs, heq⟩ := h
  cases heq
  have hlength : (assigned data.keys).length = cs.length := by
    rw [(getElem?_cells hcs).1]
    simp [assigned, Entries.keys, Entries.values]
  rw [assignmentsOf_eq]
  refine commas_reads (cells_chain hcs hraw (fun t ht => ?_) hlength p)
  obtain ⟨column, hcolumn, rfl⟩ := List.mem_map.1 ht
  exact (hcolumns column hcolumn).append hequals

/-! ## Rows -/

/-- The rows of VALUES hold the cells of all values one after another. -/
theorem rows_eq_ok {start : Nat} {values : List (List Value)} {tuples : List String}
    {bound : List Value} (h : rows values start = .ok (tuples, bound)) :
    ∃ cs : List (List String), tuples = cs.map tupleOf ∧
      cs.map List.length = values.map List.length ∧ cells start values.flatten = .ok cs.flatten ∧
      bound = boundValues values.flatten := by
  induction values generalizing start tuples bound with
  | nil =>
    cases h
    exact ⟨[], rfl, rfl, rfl, rfl⟩
  | cons row rest ih =>
    rw [rows] at h
    simp only [valuesTuple, bind_eq_ok, pure_eq_ok] at h
    obtain ⟨_, ⟨first, hfirst, rfl⟩, ⟨others, more⟩, hrest, heq⟩ := h
    cases heq
    rw [← Int.natCast_add] at hrest
    obtain ⟨cs, rfl, hlength, hcells, rfl⟩ := ih hrest
    refine ⟨first :: cs, rfl, ?_, ?_, ?_⟩
    · rw [List.map_cons, List.map_cons, (getElem?_cells hfirst).1, hlength]
    · rw [List.flatten_cons, List.flatten_cons]
      exact cells_append_eq_ok hfirst hcells
    · rw [List.flatten_cons, boundValues, boundValues, boundValues, List.filter_append]

theorem zipWith_empty (cs : List String) :
    List.zipWith (· ++ ·) (cs.map fun _ => "") cs = cs := by
  induction cs with
  | nil => rfl
  | cons c cs ih => rw [List.map_cons, List.zipWith_cons_cons, ih, String.empty_append]

theorem valuesTuple_reads {row : List Value} {start : Nat} {text : String}
    (h : valuesTuple row start = .ok text) (hraw : ∀ t ∈ rawTexts row, Plain t) (p : Int) :
    Reads p text (indexes start (countBound row)) := by
  rw [valuesTuple, bind_eq_ok] at h
  obtain ⟨cs, hcs, heq⟩ := h
  cases heq
  have hempty : ∀ t ∈ cs.map fun _ => "", Plain t := by
    intro t ht
    obtain ⟨_, _, rfl⟩ := List.mem_map.1 ht
    exact plain_empty
  have hchain := cells_chain hcs hraw hempty (List.length_map _) p
  rw [zipWith_empty] at hchain
  exact (commas_reads hchain).parens

theorem rows_chain {start : Nat} {values : List (List Value)} {tuples : List String}
    {bound : List Value} (h : rows values start = .ok (tuples, bound))
    (hraw : ∀ t ∈ rawTexts values.flatten, Plain t) (p : Int) :
    Chain p tuples (indexes start (countBound values.flatten)) := by
  induction values generalizing start tuples bound p with
  | nil =>
    cases h
    exact .nil p
  | cons row rest ih =>
    rw [rows] at h
    simp only [bind_eq_ok, pure_eq_ok] at h
    obtain ⟨tuple, htuple, ⟨others, more⟩, hrest, heq⟩ := h
    cases heq
    rw [List.flatten_cons, rawTexts, List.filterMap_append] at hraw
    obtain ⟨hrow, hrows⟩ := List.forall_mem_append.1 hraw
    rw [← Int.natCast_add] at hrest
    rw [List.flatten_cons, countBound_append, indexes_add]
    exact .cons (valuesTuple_reads htuple hrow p) (ih hrest hrows _)

end Querywright.Clause
