/-
  Selects written as SQL. The values of the joins come first, then those of WHERE, then those of
  HAVING, in the order of their placeholders in the text; `preceding` counts the values that are
  bound by the text before.

  * `Select.compile` writes a select, `Filter.compile` a filter.
  * A filter without subqueries must reach exactly as many values as it has. A subquery among its
    values is written in place of its bare placeholder, and its own values take its place.
-/
import Querywright.Clause.Columns
import Querywright.Placeholder
import Querywright.Select.Tree
import Querywright.Statement.Basic

namespace Querywright

/-- SQL text with the values that it binds. -/
structure Piece where
  sql : String
  arguments : List Value

/-- A written filter: the condition set it ended as, its text if it has conditions, and the values
that it binds. -/
structure FilterPiece where
  conditions : Option ConditionSet
  text : Option String
  arguments : List Value

namespace FilterPiece

/-- No filter. -/
def absent : FilterPiece := ⟨none, none, []⟩

/-- The clause that begins with the keyword. -/
def clause (keyword : String) (f : FilterPiece) : String :=
  match f.text with
  | some text => " " ++ keyword ++ " " ++ text
  | none => ""

/-- Whether nothing is filtered. -/
def isEmpty (f : FilterPiece) : Bool := f.text.isNone

/-- The same filter with every index written out. -/
def numbered (f : FilterPiece) : Except Fault FilterPiece :=
  match f.text with
  | none => .ok f
  | some text => do
    let text ← Placeholder.numberBare text
    return { f with
      conditions := f.conditions.map fun c => ⟨.tuple [.text text], c.params⟩
      text := some text }

end FilterPiece

/-- The fault of a filter whose placeholders and values differ in number. -/
def mismatch (clause : String) (query : Option String) (expected received : Int) : Fault :=
  if Placeholder.tooLong expected then .integerTooLong none
  else .parameterMismatch clause query expected received

namespace Filter

/-- Check that the placeholders of the text reach exactly the values that are there. -/
def checkCount (clause text : String) (preceding : Int) (received : Nat) : Except Fault Unit := do
  let expected := (← Placeholder.highestIndex text preceding) - preceding
  if expected = received then return ()
  else throw (mismatch clause (some text) expected received)

/-- A filter without conditions: it must have no values either. -/
def compileEmpty (clause : String) (source : ConditionSet) : Except Fault FilterPiece :=
  if source.params.truth then
    match source.params.items? with
    | some items => .error (mismatch clause none 0 items.length)
    | none => .error .unsupported
  else .ok ⟨some source, none, []⟩

/-- The lexemes of one condition with subqueries written in place of their placeholders, from the
replacement of each placeholder: its text, and what it leaves of the values. -/
def writeMarks {σ : Type} (step : List Char → σ → Except Fault (List Char × σ)) :
    List Placeholder.Lexeme → σ → Except Fault (List Char × σ)
  | [], s => .ok ([], s)
  | .plain c :: rest, s => do
    let (text, s) ← writeMarks step rest s
    return (c :: text, s)
  | .mark digits :: rest, s => do
    let (here, s) ← step digits s
    let (text, s) ← writeMarks step rest s
    return (here ++ text, s)

/-- A value of a filter once the subqueries are written: the value itself, or how to write the
subquery after a number of values. -/
abbrev Slot := Value ⊕ (Int → Except Fault Piece)

/-- Replace one bare placeholder by the next value: a value keeps the placeholder, a subquery is
written in parentheses. The state holds the values that are left and those bound so far. -/
def writeMark (clause condition : String) (preceding : Int) (total : Nat) (digits : List Char)
    (state : List Slot × List Value) : Except Fault (List Char × List Slot × List Value) :=
  if !digits.isEmpty then .error (.shape (.numberedSubquery clause))
  else match state with
    | ([], _) => .error (mismatch clause (some condition) (total + 1) total)
    | (.inl v :: rest, bound) => .ok (['?'], rest, bound ++ [v])
    | (.inr write :: rest, bound) => do
      let piece ← write (preceding + bound.length)
      return ('(' :: piece.sql.toList ++ [')'], rest, bound ++ piece.arguments)

/-- Write the subqueries into the conditions, one condition after another. -/
def writeConditions (clause : String) (preceding : Int) (total : Nat) :
    List Value → List Slot × List Value →
      Except Fault (List String × List Slot × List Value)
  | [], state => .ok ([], state)
  | v :: rest, state =>
    match v.asText? with
    | none => .error .unsupported
    | some condition => do
      let _ ← Placeholder.numbers condition.toList
      let (text, state) ← writeMarks (writeMark clause condition preceding total)
        (Placeholder.lex condition.toList) state
      let (texts, state) ← writeConditions clause preceding total rest state
      return (String.ofList text :: texts, state)

/-- Write a filter that has a subquery among its values. -/
def inlineQueries (clause : String) (preceding : Int) (conditions : List Value)
    (slots : List Slot) : Except Fault (List String × List Value) := do
  let total := slots.length
  let (texts, left, bound) ← writeConditions clause preceding total conditions (slots, [])
  if left.isEmpty then return (texts, bound)
  else
    let query := ConditionSet.joined (← Value.texts conditions)
    throw (mismatch clause (some query) (total - left.length : Nat) total)

/-- Write a filter that has conditions, from its values and the ways to write its subqueries. -/
def compileGiven (clause : String) (preceding : Int) (source : ConditionSet) (hasQuery : Bool)
    (slots : List Slot) : Except Fault FilterPiece := do
  let params ← source.params.items
  if hasQuery then
    let (texts, bound) ← inlineQueries clause preceding (← source.conditions.items) slots
    let text := ConditionSet.joined texts
    checkCount clause text preceding bound.length
    return ⟨some ⟨.tuple (texts.map .text), .tuple bound⟩, some text, bound⟩
  else
    let text := ConditionSet.joined (← source.texts)
    checkCount clause text preceding params.length
    return ⟨some source, some text, params⟩

end Filter

/-- The table of a statement: a text that is not blank. -/
def requireTable (operation : String) (table : Value) : Except Fault String :=
  match table.asText? with
  | some s =>
    if Text.isBlankText s then .error (.missingData operation "table_name") else .ok table.display
  | none => .error (.missingData operation "table_name")

/-- The text of a select, from its table, its written joins and its written filters. -/
def Clauses.render (strict : Bool) (table joins : String) (filter having : FilterPiece)
    (c : Clauses) : Except Fault String := do
  let fields ← Clause.fields c.fields
  let groupBy ← Clause.groupBy c.groupBy
  let orderBy ← Clause.orderBy c.orderBy
  let limit ← Clause.limit strict c.limit
  let offset ← Clause.offset strict c.offset
  return "SELECT " ++ fields ++ " FROM " ++ table ++ joins ++ filter.clause "WHERE" ++ groupBy
    ++ having.clause "HAVING" ++ orderBy ++ limit ++ offset

mutual

/-- Write a select. With `strict`, a bound of zero is written instead of left out. -/
def Select.compile (strict : Bool) (preceding : Int) : Select → Except Fault Piece
  | .mk table joins filter having clauses => do
    let table ← requireTable "select" table
    let (joined, fromJoins) ← joins.compile strict preceding
    let filter ← filter.compile strict "WHERE" (preceding + fromJoins.length)
    let having ← having.compile strict "HAVING"
      (preceding + fromJoins.length + filter.arguments.length)
    let sql ← clauses.render strict table (Join.renderAll joins.isGiven joined) filter having
    return ⟨sql, fromJoins ++ filter.arguments ++ having.arguments⟩

/-- Write the joins, and collect the values that their selects bind. -/
def Joins.compile (strict : Bool) (preceding : Int) :
    Joins → Except Fault (List String × List Value)
  | .invalid cause => .error cause
  | .nil => .ok ([], [])
  | .table join rest => do
    let (texts, arguments) ← rest.compile strict preceding
    return (join.render none :: texts, arguments)
  | .query join select rest => do
    let piece ← select.compile strict preceding
    let (texts, arguments) ← rest.compile strict (preceding + piece.arguments.length)
    return (join.render (some piece.sql) :: texts, piece.arguments ++ arguments)

/-- Write a filter. -/
def Filter.compile (strict : Bool) (clause : String) (preceding : Int) :
    Filter → Except Fault FilterPiece
  | .invalid cause => .error cause
  | .absent => .ok .absent
  | .given source params =>
    if source.isEmpty then Filter.compileEmpty clause source
    else Filter.compileGiven clause preceding source params.hasQuery (params.slots strict)

/-- The values of a filter, with a way to write each subquery. -/
def Params.slots (strict : Bool) : Params → List Filter.Slot
  | .nil => []
  | .value v rest => .inl v :: rest.slots strict
  | .query select rest => .inr (fun preceding => select.compile strict preceding) :: rest.slots strict

end

end Querywright
