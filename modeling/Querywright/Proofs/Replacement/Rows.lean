/-
  Rows before and after their values are replaced.

  VALUES and SET are the same, since raw SQL is kept and any other value takes a placeholder;
  what they bind is replaced. A table keeps its columns and the order of its rows.
-/
import Querywright.Proofs.Replacement.Parts
import Querywright.Statement.Insert

namespace Querywright

open Value

variable {g : Value → Value}

/-! ## Cells -/

namespace Clause

theorem boundValues_map (hg : KeepsPlain g) (values : List Value) :
    boundValues (values.map g) = (boundValues values).map g := by
  rw [boundValues, boundValues, List.filter_map]
  refine congrArg (List.map g) (List.filter_congr fun v _ => ?_)
  rw [Function.comp_apply, hg.isRaw_eq]

theorem countBound_map (hg : KeepsPlain g) (values : List Value) :
    countBound (values.map g) = countBound values := by
  rw [countBound, countBound, boundValues_map hg, List.length_map]

/-- A value that is not raw is a placeholder, whatever the value is. -/
theorem cells_bound {v : Value} (h : v.isRaw = false) (start : Int) (rest : List Value) :
    cells start (v :: rest)
      = mark (start + 1) >>= fun first => cells (start + 1) rest >>= fun more =>
          .ok (first :: more) := by
  cases v with
  | raw content => cases h
  | _ => rfl

theorem cells_map (hg : KeepsPlain g) (start : Int) (values : List Value) :
    cells start (values.map g) = cells start values := by
  induction values generalizing start with
  | nil => rfl
  | cons v rest ih =>
    rw [List.map_cons]
    cases hv : v.isRaw with
    | false =>
      have hgv : (g v).isRaw = false := by rw [hg.isRaw_eq, hv]
      rw [cells_bound hgv, cells_bound hv, ih]
    | true =>
      rw [hg.raw hv]
      cases v with
      | raw content => rw [cells, cells, ih]
      | _ => cases hv

theorem rows_map (hg : KeepsPlain g) (values : List (List Value)) (start : Int) :
    rows (values.map (List.map g)) start
      = (rows values start).map (Prod.map id (List.map g)) := by
  induction values generalizing start with
  | nil => rfl
  | cons row rest ih =>
    rw [List.map_cons, rows, rows, valuesTuple, cells_map hg, ← valuesTuple]
    refine bind_same fun tuple _ => ?_
    rw [countBound_map hg]
    refine bind_commutes (ih _) fun written _ => ?_
    simp only [pure, Except.pure, Except.map, Prod.map, id_eq, boundValues_map hg, List.map_append]

end Clause

/-! ## Entries of a row -/

namespace Entries

/-- The entries with each value replaced. -/
def replace (g : Value → Value) (entries : Entries) : Entries :=
  entries.map fun e => (e.1, g e.2)

theorem keys_replace (entries : Entries) : (entries.replace g).keys = entries.keys := by
  rw [replace, keys, keys, List.map_map]
  rfl

theorem values_replace (entries : Entries) :
    (entries.replace g).values = entries.values.map g := by
  rw [replace, values, values, List.map_map, List.map_map]
  rfl

theorem get?_replace (key : Value) (entries : Entries) :
    (entries.replace g).get? key = (entries.get? key).map g := by
  induction entries with
  | nil => rfl
  | cons e rest ih =>
    obtain ⟨k, v⟩ := e
    rw [replace, List.map_cons, get?_cons, get?_cons, ← replace, ih]
    split <;> rfl

theorem sameKeySet_replace (a b : Entries) :
    sameKeySet (a.replace g) (b.replace g) = sameKeySet a b := by
  have hhas : ∀ key, (b.replace g).has key = b.has key := by
    intro key
    rw [has, has, get?_replace, Option.isSome_map]
  rw [sameKeySet, sameKeySet, replace, replace, List.length_map, List.length_map, List.all_map,
    ← replace]
  refine congrArg (_ && ·) (List.all_congr rfl fun e => ?_)
  exact hhas e.1

end Entries

namespace Value

theorem replace_cell (v : Value) : replace g .cell v = g v := replace_of_binds rfl

theorem replaceEntries_row (entries : Entries) :
    replaceEntries g .row entries = entries.replace g := by
  rw [replaceEntries_eq_map]
  exact List.map_congr_left fun e _ => congrArg (Prod.mk e.1) (replace_cell e.2)

theorem asMap?_replace (v : Value) :
    (replace g .row v).asMap? = v.asMap?.map (Entries.replace g) := by
  rw [replace_inside rfl]
  cases v with
  | map entries => exact congrArg some (replaceEntries_row entries)
  | _ => rfl

/-- The data of an insert is one row or a list of rows. -/
theorem replace_rows_map (entries : Entries) :
    replace g .rows (.map entries) = .map (entries.replace g) := by
  rw [replace_inside rfl, replaceInside, ← replaceEntries_row]
  exact congrArg Value.map (replaceEntries_congr .rows .row (fun _ => rfl) entries)

theorem replace_row_map (entries : Entries) :
    replace g .row (.map entries) = .map (entries.replace g) := by
  rw [replace_inside rfl, replaceInside, replaceEntries_row]

end Value

/-! ## Tables -/

namespace Statement.Table

/-- The table with each value replaced. -/
def replace (g : Value → Value) (t : Table) : Table :=
  { t with values := t.values.map (List.map g) }

theorem rowValues_replace (data : Value) :
    rowValues (Value.replace g .rows data)
      = (rowValues data).map (List.map (Value.replace g .row)) := by
  cases data with
  | map entries =>
    rw [replace_rows_map]
    exact congrArg (fun v => Except.ok [v]) (replace_row_map entries).symm
  | list items | tuple items =>
    rw [replace_inside rfl]
    exact congrArg Except.ok (replaceAll_eq_map .row items)
  | _ =>
    rw [replace_inside rfl]
    rfl

theorem rowMaps_replace (position : Nat) (items : List Value) :
    rowMaps position (items.map (Value.replace g .row))
      = (rowMaps position items).map (List.map (Entries.replace g)) := by
  induction items generalizing position with
  | nil => rfl
  | cons v rest ih =>
    cases v with
    | map entries =>
      rw [List.map_cons, replace_row_map, rowMaps, rowMaps, ih]
      cases rowMaps (position + 1) rest <;> rfl
    | _ =>
      rw [List.map_cons, replace_inside rfl]
      rfl

theorem valuesAt_replace (row : Entries) (columns : List Value) :
    valuesAt (row.replace g) columns = (valuesAt row columns).map (List.map g) := by
  induction columns with
  | nil => rfl
  | cons column rest ih =>
    rw [valuesAt, valuesAt, Entries.get?_replace, ih]
    cases row.get? column with
    | none => rfl
    | some v => cases valuesAt row rest <;> rfl

theorem align_replace (first : Entries) (position : Nat) (rows : List Entries) :
    align (first.replace g) position (rows.map (Entries.replace g))
      = (align first position rows).map (List.map (List.map g)) := by
  induction rows generalizing position with
  | nil => rfl
  | cons row rest ih =>
    rw [List.map_cons, align, align, Entries.sameKeySet_replace, Entries.keys_replace]
    split
    · refine bind_commutes (valuesAt_replace row first.keys) fun values _ => ?_
      exact bind_commutes (ih (position + 1)) fun more _ => rfl
    · rfl

theorem ofData_replace (data : Value) :
    ofData (Value.replace g .rows data) = (ofData data).map (replace g) := by
  rw [ofData, ofData]
  refine bind_commutes (rowValues_replace data) fun items _ => ?_
  refine bind_commutes (rowMaps_replace 0 items) fun rows _ => ?_
  cases rows with
  | nil => rfl
  | cons first rest =>
    have hempty : (first.replace g).isEmpty = first.isEmpty := List.isEmpty_map
    rw [List.map_cons]
    dsimp only
    rw [hempty, Entries.keys_replace, Entries.values_replace]
    split
    · rfl
    · exact bind_commutes (align_replace first 1 rest) fun more _ => rfl

end Statement.Table
end Querywright
