/-
  The parts of a statement fault as a map from their names. A fault of missing data also tells
  which operation wanted which field.
-/
import Querywright.Fault

namespace Querywright

/-- The parts as a map. -/
def FaultContext.toEntries (c : FaultContext) : Entries :=
  [(.text "clause", c.clause), (.text "query", c.query), (.text "expected_params", c.expected),
    (.text "received_params", c.received), (.text "hint", c.hint)]

namespace Fault

/-- The operation and the field of missing data. -/
def subject? : Fault → Option (Value × Value)
  | .missingData operation field => some (.text operation, .text field)
  | .rejected r => r.subject
  | _ => none

/-- The parts of a statement fault as a map. -/
def contextEntries (e : Fault) : Option Entries :=
  e.context.map fun c => c.toEntries ++ match e.subject? with
    | some (operation, field) => [(.text "operation", operation), (.text "field", field)]
    | none => []

end Fault
end Querywright
