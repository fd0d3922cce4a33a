/-
  Statements bound to what runs them. A select carries a second statement that counts its rows;
  it is run by its own runner, or by the select's when it has none.
-/
import Querywright.Statement.Basic
import Querywright.Fault

namespace Querywright

/-- A statement, what runs it, and whether its rows are streamed. -/
structure Query (Runner : Type) where
  statement : Statement
  runner : Option Runner
  streamed : Value := .bool false
  /-- The count statement of a select, with its own runner. -/
  companion : Option (Statement × Option Runner) := none

namespace Query

variable {Runner : Type}

/-- What executing the query runs. -/
def execution (q : Query Runner) : Except Fault (Runner × Statement) :=
  match q.runner with
  | some r => .ok (r, q.statement)
  | none => .error .unbound

/-- What counting the rows runs. Only a select can count. -/
def counting (q : Query Runner) : Except Fault (Runner × Statement) :=
  match q.companion with
  | none => .error .noMember
  | some (count, runner) =>
    match runner <|> q.runner with
    | some r => .ok (r, count)
    | none => .error .unbound

/-- The query as a quoted record. -/
def literal (q : Query Runner) : String :=
  (if q.companion.isSome then "QueryWithCount(" else "Query(") ++ q.statement.literal
    ++ ", lazy=" ++ q.streamed.display ++ ")"

end Query
end Querywright
