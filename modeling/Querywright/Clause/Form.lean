/-
  The clauses that can be written on their own, each from the arguments of a call. Here the number
  that VALUES and SET start after may be any number, and is not looked at when nothing is bound.
-/
import Querywright.Clause.Columns
import Querywright.Clause.Row
import Querywright.Descriptor.ConditionSet
import Querywright.Descriptor.Join
import Querywright.Value.Arguments
import Querywright.Value.Order

namespace Querywright.Clause

/-- A clause, or the entries or joins of one. -/
inductive Form where
  | columnEntries
  | orderEntries
  | fields
  | filter
  | having
  | joinRecords
  | joins
  | groupBy
  | orderBy
  | limit
  | offset
  | returning
  | valuesTuple
  | assignments
  | conflictKeyword
  | conflictTarget
  deriving DecidableEq, Repr

/-- The number after a number, which must not be too long to be written. -/
def following (v : Value) : Except Fault Value :=
  match v.asInteger?, v with
  | some n, _ => if Placeholder.tooLong (n + 1) then .error (.integerTooLong none) else .ok (.int (n + 1))
  | none, .float x => .ok (.float x.addOne)
  | none, _ => .error .unsupported

/-- Each value as SQL, numbering the bound ones after any start. -/
def cellsAfter (start : Value) : List Value → Except Fault (List String)
  | [] => .ok []
  | .raw content :: rest => (cellsAfter start rest).map (content.display :: ·)
  | _ :: rest => do
    let position ← following start
    return ("?" ++ position.display) :: (← cellsAfter position rest)

namespace Form

/-- The parameters of a clause. -/
def parameters : Form → List Parameter
  | .columnEntries | .orderEntries | .fields | .groupBy | .orderBy | .returning
  | .conflictKeyword | .joinRecords => [.required "value"]
  | .filter => [.required "where", .option "keyword_text" (.text "WHERE")]
  | .having => [.required "having"]
  | .joins => [.required "joins", .required "subqueries"]
  | .limit | .offset => [.required "value", .option "strict" (.bool false)]
  | .valuesTuple => [.required "values", .required "start"]
  | .assignments => [.required "data", .required "start"]
  | .conflictTarget => [.required "column"]

/-- The clause of a condition set that may be absent. -/
def ofConditions (keyword : String) : Option ConditionSet → Except Fault String
  | none => .ok ""
  | some c => c.clause keyword

/-- The joins as SQL, beside their written subqueries; a null stands for none. -/
def ofJoins (joins : List Join) (subqueries : Value) : Except Fault String := do
  if joins.isEmpty then return ""
  let rendered := List.zipWith (fun (join : Join) (s : Value) =>
    join.render (match s with
      | .null => none
      | v => some v.display)) joins (← subqueries.items)
  return Join.renderAll true rendered

/-- The clause from the values of its parameters. -/
def ofValues (f : Form) (values : List Value) : Except Fault String :=
  match f, values with
  | .fields, [v] => Clause.fields v
  | .groupBy, [v] => Clause.groupBy v
  | .orderBy, [v] => Clause.orderBy v
  | .returning, [v] => Clause.returning v
  | .conflictKeyword, [v] => .ok (Clause.conflictKeyword v)
  | .conflictTarget, [v] => Clause.conflictTarget v
  | .limit, [v, strict] => Clause.limit strict.truth v
  | .offset, [v, strict] => Clause.offset strict.truth v
  | .valuesTuple, [values, start] => do
    return tupleOf (← cellsAfter start (← values.items))
  | .assignments, [data, start] =>
    match data.asMap? with
    | some entries => do return assignmentsOf entries.keys (← cellsAfter start entries.values)
    | none => .error .noMember
  | _, _ => .error .unsupported

/-- The first argument, which is read before the others are looked at. -/
def first (a : Arguments) : Except Fault Value :=
  match a.placed with
  | v :: _ => .ok v
  | [] => .error .noIndex

/-- Write a clause. Condition sets and joins are read first. -/
def write (f : Form) (a : Arguments) : Except Fault Value :=
  match f with
  | .filter | .having => do
    let conditions ← ConditionSet.coerce (← first a)
    let keyword := ((← a.bind f.parameters)[1]?).getD (.text "HAVING")
    return .text (← ofConditions keyword.display conditions)
  | .columnEntries | .orderEntries | .joinRecords => do
    match f, ← a.bind f.parameters with
    | .columnEntries, [v] => return .list (← Clause.columns v)
    | .orderEntries, [v] => return .list (← Clause.orderItems v)
    | _, [v] => return .tuple ((← Join.ofValues v).map Join.toValue)
    | _, _ => throw .unsupported
  | .joins => do
    let joins ← Join.ofValues (← first a)
    match ← a.bind f.parameters with
    | [_, subqueries] => return .text (← ofJoins joins subqueries)
    | _ => throw .unsupported
  | f => do return .text (← ofValues f (← a.bind f.parameters))

end Form
end Querywright.Clause
