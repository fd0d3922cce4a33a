/-
  Condition sets: conditions joined by AND and the values bound to their placeholders, in order.
  A condition set is read from null (none), a text, a list of texts, or a mapping with
  `conditions` and optionally `params`; empty texts are dropped.
-/
import Querywright.Descriptor.Schema
import Querywright.Placeholder
import Querywright.Value.Number

namespace Querywright

/-- Conditions and their values. A set that is given as a record is taken as it is. -/
structure ConditionSet where
  conditions : Value
  params : Value

namespace ConditionSet

/-- No condition and no value. -/
def empty : ConditionSet := ⟨.tuple [], .tuple []⟩

/-- Whether there is no condition. -/
def isEmpty (c : ConditionSet) : Bool := !c.conditions.truth

/-- The condition set as a record. -/
def toValue (c : ConditionSet) : Value := .record .conditions [c.conditions, c.params]

/-- The first part that is not a text. -/
def firstOther? (parts : List Value) : Option Value :=
  parts.find? fun v => !v.isText

/-- The conditions of a list: all texts, empty ones dropped. -/
def keep (parts : List Value) : Except Fault (List Value) :=
  match firstOther? parts with
  | some v => .error (.shape (.conditionNotText v.kindName))
  | none => .ok (parts.filter Value.truth)

/-- The fault of a mapping with other entries than conditions and params. -/
def unknownFields (keys : List Value) : Fault :=
  match Value.texts keys with
  | .ok names => .shape (.unknownConditionFields (names.mergeSort (· ≤ ·)))
  | .error e => e

/-- A condition set from a mapping. -/
def ofEntries (entries : Entries) : Except Fault ConditionSet :=
  match entries.field? "conditions" with
  | none => .error (.shape .conditionsMissing)
  | some conditions =>
    match entries.keys.filter fun k =>
        !(k.sameKey (.text "conditions") || k.sameKey (.text "params")) with
    | [] => do
      let kept ← keep conditions.parts
      return ⟨.tuple kept, .tuple ((entries.field? "params").getD .null).parts⟩
    | unknown => .error (unknownFields unknown)

/-- A condition set from any value; null and the empty text give none. -/
def coerce (v : Value) : Except Fault (Option ConditionSet) :=
  match v with
  | .null => .ok none
  | .record .conditions fields =>
    .ok (some ⟨fields.getD 0 (.tuple []), fields.getD 1 (.tuple [])⟩)
  | .text s => .ok (if s = "" then none else some ⟨.tuple [v], .tuple []⟩)
  | .keyword _ => .ok (some ⟨.tuple [v], .tuple []⟩)
  | .map entries => (ofEntries entries).map some
  | .list items => (keep items).map fun kept => some ⟨.tuple kept, .tuple []⟩
  | .tuple items => (keep items).map fun kept => some ⟨.tuple kept, .tuple []⟩
  | _ => .error (.shape (.notConditions v.kindName))

/-- The conditions as texts. -/
def texts (c : ConditionSet) : Except Fault (List String) := do
  Value.texts (← c.conditions.items)

/-- The conditions joined. -/
def joined (texts : List String) : String := " AND ".intercalate texts

/-- The clause that begins with the keyword; without conditions it is left out. -/
def clause (keyword : String) (c : ConditionSet) : Except Fault String := do
  if c.isEmpty then return ""
  return " " ++ keyword ++ " " ++ joined (← c.texts)

/-- The same set as one condition with every index written out. -/
def numbered (c : ConditionSet) : Except Fault ConditionSet := do
  if c.isEmpty then return c
  let text ← Placeholder.numberBare (joined (← c.texts))
  return ⟨.tuple [.text text], c.params⟩

end ConditionSet
end Querywright
