/-
  Statement faults that callers make from any values. Each kind has its own parameters; the
  message of a plain or a shape fault must be a text, and the two counts of a mismatch must have
  an order.
-/
import Querywright.Value.Arguments
import Querywright.Value.Order

namespace Querywright.Rejection

/-- The name of a parameter that can be left out; it is null then. -/
def part (name : String) : Parameter := .option name .null

/-- The parameters of a kind of fault. -/
def parameters : FaultKind → List Parameter
  | .plain => [.required "message", part "clause", part "query", part "expected_params",
      part "received_params", part "hint"]
  | .mismatch =>
    [{ name := "clause", byPlace := false }, { name := "expected_params", byPlace := false },
      { name := "received_params", byPlace := false }, part "query"]
  | .missing => [.required "operation", .required "field"]
  | .shape => [.required "message", { name := "hint", default? := some .null }]

/-- The message of a fault. -/
def messageOf (v : Value) : Except Fault String :=
  match v.asText? with
  | some s => .ok s
  | none => .error .unsupported

/-- A fault from the values of its kind's parameters. -/
def ofValues (kind : FaultKind) (values : List Value) : Except Fault Rejection :=
  match kind, values with
  | .plain, [message, clause, query, expected, received, hint] => do
    return { kind, message := ← messageOf message,
             context := { clause, query, expected, received, hint } }
  | .mismatch, [clause, expected, received, query] => do
    let excess ← received.exceeds expected
    return { kind, message := Fault.mismatchMessage,
             context := { clause, query, expected, received,
                          hint := .text (Fault.mismatchHint excess) } }
  | .missing, [operation, field] =>
    .ok { kind, message := Fault.missingMessage operation.display field.display,
          context := { hint := .text (Fault.missingHint field.display) },
          subject := some (operation, field) }
  | .shape, [message, hint] => do
    return { kind, message := ← messageOf message, context := { hint } }
  | _, _ => .error .unsupported

/-- A fault from the arguments of a call. -/
def ofArguments (kind : FaultKind) (a : Arguments) : Except Fault Rejection := do
  ofValues kind (← a.bind (parameters kind))

/-- The kind that a label names. -/
def kindOfLabel? (label : String) : Option FaultKind :=
  [FaultKind.plain, .mismatch, .missing, .shape].find? fun k => Fault.kindLabel k == label

end Querywright.Rejection
