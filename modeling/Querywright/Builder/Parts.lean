/-
  What fluent builders collect: condition sets that grow by AND, lists that grow at the end, and
  the condition that restricts columns to given rows.
-/
import Querywright.Descriptor.ConditionSet
import Querywright.Descriptor.Join

namespace Querywright.Builder

/-- Collected conditions and values. -/
structure Collected where
  conditions : List Value := []
  params : List Value := []

namespace Collected

/-- Conditions and values as they are given to a call. -/
def ofCall (conditions params : Value) : Except Fault Collected := do
  return ⟨← ConditionSet.keep conditions.parts, params.parts⟩

/-- Both, the second after the first. -/
def append (a b : Collected) : Collected :=
  ⟨a.conditions ++ b.conditions, a.params ++ b.params⟩

/-- The collected set as a condition set. -/
def toSet (c : Collected) : ConditionSet := ⟨.tuple c.conditions, .tuple c.params⟩

/-- Add conditions to what has been collected so far. -/
def extend (current : Option Collected) (conditions params : Value) :
    Except Fault (Option Collected) := do
  return some ((current.getD ⟨[], []⟩).append (← ofCall conditions params))

/-- The field of a descriptor for what has been collected. -/
def toField : Option Collected → Value
  | none => .null
  | some c => c.toSet.toValue

end Collected

/-- Add parts to a list that has been collected so far. -/
def extendList (current : Option (List Value)) (addition : Value) : Option (List Value) :=
  some (current.getD [] ++ addition.parts)

/-- The field of a descriptor for a collected list. -/
def listField : Option (List Value) → Value
  | none => .null
  | some items => .list items

/-- One VALUES tuple of bare placeholders. -/
def markTuple (width : Nat) : String :=
  "(" ++ Value.commas (List.replicate width "?") ++ ")"

/-- The condition that columns are one of several rows. -/
def inText (columns : String) (rows : Nat) (width : Nat) : String :=
  "(" ++ columns ++ ") IN (VALUES " ++ Value.commas (List.replicate rows (markTuple width)) ++ ")"

/-- The condition that columns hold one of the given rows, with the rows' values. A single column
is given as a text and its rows as plain values. -/
def whereIn (columns values : Value) : Except Fault (String × List Value) := do
  if columns.isText then
    let rows ← values.items
    return (inText columns.display rows.length 1, rows)
  else
    let names ← columns.items
    let rows ← values.items
    let cells ← rows.mapM Value.items
    return (inText (Value.commas (← Value.texts names)) rows.length names.length, cells.flatten)

end Querywright.Builder
