/-
  Select statements from descriptors: one row, all rows, or the number of rows.
-/
import Querywright.Select.Compile

namespace Querywright.Statement

/-- A select of one row. Its own limit, if it has one, is ignored. -/
def selectOne (strict : Bool) (v : Value) : Except Fault Statement := do
  let select := Select.ofValue (← RecordKind.coerce .selectOne v)
  let piece ← (select.withLimit (.int 1)).compile strict 0
  return ⟨.text piece.sql, piece.arguments, .one⟩

/-- The select record of a descriptor that may have a limit. -/
def selectRecord (v : Value) : Except Fault Value :=
  if Join.isSelect v then .ok v else RecordKind.coerce .selectAll v

/-- A select of all rows, or of as many as its limit. -/
def selectAll (strict : Bool) (v : Value) : Except Fault Statement := do
  let piece ← (Select.ofValue (← selectRecord v)).compile strict 0
  return ⟨.text piece.sql, piece.arguments, .all⟩

/-- The number of rows that a select reaches without grouping and bounds. -/
def count (strict : Bool) (v : Value) : Except Fault Statement := do
  let piece ← (Select.ofValue (← selectRecord v)).counting.compile strict 0
  return ⟨.text piece.sql, piece.arguments, .one⟩

end Querywright.Statement
