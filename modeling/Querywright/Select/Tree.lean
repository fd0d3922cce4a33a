/-
  Select statements as trees. A select holds its table, its joins, its WHERE and HAVING filters
  and the clauses that are written as they are given. A join may hold a select, and so may a
  value of a filter. What cannot be read is kept in its place as a fault: it is reported when the
  statement is written, and only if nothing before it fails.

  `Select.ofRecord` reads the tree of a record. Its first argument bounds the nesting; a record's
  own depth is always enough, and `Select.ofValue` passes that.
-/
import Querywright.Descriptor.ConditionSet
import Querywright.Descriptor.Join

namespace Querywright

/-- The clauses of a select that hold no value to bind. -/
structure Clauses where
  fields : Value
  groupBy : Value
  orderBy : Value
  limit : Value
  offset : Value

mutual

/-- A select statement. -/
inductive Select where
  | mk (table : Value) (joins : Joins) (filter : Filter) (having : Filter) (clauses : Clauses)

/-- The joins of a select, in order. -/
inductive Joins where
  | invalid (cause : Fault)
  | nil
  | table (join : Join) (rest : Joins)
  | query (join : Join) (select : Select) (rest : Joins)

/-- A WHERE or HAVING: none, or a condition set with its values. -/
inductive Filter where
  | invalid (cause : Fault)
  | absent
  | given (source : ConditionSet) (params : Params)

/-- The values of a condition set, in order. -/
inductive Params where
  | nil
  | value (v : Value) (rest : Params)
  | query (select : Select) (rest : Params)

end

/-- Whether there is a join. -/
def Joins.isGiven : Joins → Bool
  | .nil => false
  | _ => true

namespace Params

/-- How many values there are, each subquery counting once. -/
def length : Params → Nat
  | .nil => 0
  | .value _ rest => rest.length + 1
  | .query _ rest => rest.length + 1

/-- Whether a subquery is among them. -/
def hasQuery : Params → Bool
  | .nil => false
  | .value _ rest => rest.hasQuery
  | .query _ _ => true

end Params

namespace Value

mutual

/-- How deeply values are nested in a value. -/
def depth : Value → Nat
  | .list items => depthAll items + 1
  | .tuple items => depthAll items + 1
  | .set items => depthAll items + 1
  | .map entries => depthEntries entries + 1
  | .raw content => depth content + 1
  | .record _ fields => depthAll fields + 1
  | .builder options => depth options + 1
  | _ => 0

/-- The greatest depth in a list. -/
def depthAll : List Value → Nat
  | [] => 0
  | v :: rest => max (depth v) (depthAll rest)

/-- The greatest depth in the entries of a map. -/
def depthEntries : List (Value × Value) → Nat
  | [] => 0
  | (k, v) :: rest => max (max (depth k) (depth v)) (depthEntries rest)

end

/-- The select record of a value that stands for a subquery among the values of a filter. -/
def subquery? : Value → Option Value
  | .builder options => some options
  | v => if Join.isSelect v then some v else none

end Value

namespace Select

/-- Read the values of a filter, given how to read a select record. -/
def readParams (read : Value → Select) : List Value → Params
  | [] => .nil
  | v :: rest =>
    match v.subquery? with
    | some s => .query (read s) (readParams read rest)
    | none => .value v (readParams read rest)

theorem readParams_cons (read : Value → Select) (v : Value) (rest : List Value) :
    readParams read (v :: rest) = match v.subquery? with
      | some s => .query (read s) (readParams read rest)
      | none => .value v (readParams read rest) := rfl

/-- Read a condition set's values, given how to read a select record. -/
def readConditions (read : Value → Select) (source : ConditionSet) : Filter :=
  .given source (readParams read (source.params.items?.getD []))

/-- Read a filter, given how to read a select record. -/
def readFilter (read : Value → Select) (v : Value) : Filter :=
  match ConditionSet.coerce v with
  | .error e => .invalid e
  | .ok none => .absent
  | .ok (some source) => readConditions read source

/-- Read the joins, given how to read a select record. -/
def readJoins (read : Value → Select) : List Join → Joins
  | [] => .nil
  | j :: rest =>
    if Join.isSelect j.table then .query j (read j.table) (readJoins read rest)
    else .table j (readJoins read rest)

/-- The tree of the fields of a select record, given how to read a select record inside it. -/
def ofFields (read : Value → Select) (kind : RecordKind) (fields : List Value) : Select :=
  let field := kind.field fields
  .mk (field "table_name")
    (match Join.ofValues (field "join") with
      | .error e => .invalid e
      | .ok joins => readJoins read joins)
    (readFilter read (field "where"))
    (readFilter read (field "having"))
    ⟨field "fields", field "group_by", field "order_by", field "limit", field "offset"⟩

/-- A select of nothing. -/
def blank : Select := .mk .null .nil .absent .absent ⟨.null, .null, .null, .null, .null⟩

/-- The tree of a select record that is nested at most so deep. -/
def ofRecord : Nat → Value → Select
  | 0, _ => blank
  | levels + 1, .record kind fields => ofFields (ofRecord levels) kind fields
  | _ + 1, _ => blank

/-- The tree of a select record. -/
def ofValue (v : Value) : Select := ofRecord v.depth v

/-- The same select with another limit. -/
def withLimit (limit : Value) : Select → Select
  | .mk table joins filter having clauses =>
    .mk table joins filter having { clauses with limit := limit }

/-- The select that counts the rows: one row of a count over the same table, joins and filters,
in the same order, without grouping or offset. -/
def counting : Select → Select
  | .mk table joins filter having clauses =>
    .mk table joins filter having
      ⟨.text "count(*) as total", .null, clauses.orderBy, .int 1, .null⟩

end Select
end Querywright
