/-
  Bound values in VALUES and SET. Raw SQL stands for itself; every other value takes the next
  placeholder. The values that are bound are the ones that are not raw, in the same order, so the
  k-th placeholder after `start` binds the k-th bound value.
-/
import Querywright.Placeholder
import Querywright.Value.Key
import Querywright.Value.Number

namespace Querywright.Clause

/-- The values that are bound. -/
def boundValues (values : List Value) : List Value :=
  values.filter fun v => !v.isRaw

/-- How many values are bound. -/
def countBound (values : List Value) : Nat := (boundValues values).length

/-- The placeholder for an index, which must not be too long to be written. -/
def mark (index : Int) : Except Fault String :=
  if Placeholder.tooLong index then .error (.integerTooLong none)
  else .ok ("?" ++ toString index)

/-- Each value as SQL, numbering the bound ones after `start`. -/
def cells (start : Int) : List Value → Except Fault (List String)
  | [] => .ok []
  | .raw content :: rest => do return content.display :: (← cells start rest)
  | _ :: rest => do
    let first ← mark (start + 1)
    return first :: (← cells (start + 1) rest)

/-- Cells as a tuple of VALUES. -/
def tupleOf (cells : List String) : String := "(" ++ Value.commas cells ++ ")"

/-- A tuple of VALUES. -/
def valuesTuple (values : List Value) (start : Int) : Except Fault String := do
  return tupleOf (← cells start values)

/-- Columns and the cells assigned to them. -/
def assignmentsOf (columns : List Value) (cells : List String) : String :=
  Value.commas (List.zipWith (fun column cell => column.display ++ " = " ++ cell) columns cells)

/-- The assignments of SET. -/
def assignments (data : Entries) (start : Int) : Except Fault String := do
  return assignmentsOf data.keys (← cells start data.values)

/-- The tuples of several rows, and the values they bind. -/
def rows (values : List (List Value)) (start : Int) : Except Fault (List String × List Value) :=
  match values with
  | [] => .ok ([], [])
  | row :: rest => do
    let tuple ← valuesTuple row start
    let (tuples, bound) ← rows rest (start + countBound row)
    return (tuple :: tuples, boundValues row ++ bound)

end Querywright.Clause
