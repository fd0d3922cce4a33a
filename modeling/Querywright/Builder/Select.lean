/-
  Fluent construction of a select. Every call gives a new builder; the one it is called on stays
  as it was.
-/
import Querywright.Builder.Parts

namespace Querywright

/-- What a select builder has collected. -/
structure SelectBuilder where
  table : Value
  fields : Option (List Value) := none
  filter : Option Builder.Collected := none
  joins : Option (List Value) := none
  groupBy : Option (List Value) := none
  having : Option Builder.Collected := none
  orderBy : Option (List Value) := none
  offset : Value := .null
  limit : Value := .null

/-- A call on a select builder. -/
inductive SelectCall where
  | table (name : Value)
  | fields (columns : Value)
  | filter (conditions params : Value)
  | filterIn (columns values : Value)
  | join (joins : Value)
  | groupBy (columns : Value)
  | having (conditions params : Value)
  | orderBy (items : Value)
  | limit (n : Value)
  | offset (n : Value)

namespace SelectBuilder

open Builder

/-- The builder after a call. -/
def apply (b : SelectBuilder) : SelectCall → Except Fault SelectBuilder
  | .table name => .ok { b with table := name }
  | .fields columns => .ok { b with fields := extendList b.fields columns }
  | .filter conditions params => do
    return { b with filter := ← Collected.extend b.filter conditions params }
  | .filterIn columns values =>
    if values.truth then do
      let (condition, cells) ← whereIn columns values
      return { b with filter := ← Collected.extend b.filter (.text condition) (.list cells) }
    else .ok b
  | .join joins => .ok { b with joins := extendList b.joins joins }
  | .groupBy columns => .ok { b with groupBy := extendList b.groupBy columns }
  | .having conditions params => do
    return { b with having := ← Collected.extend b.having conditions params }
  | .orderBy items => .ok { b with orderBy := extendList b.orderBy items }
  | .limit n => .ok { b with limit := n }
  | .offset n => .ok { b with offset := n }

/-- The builder after several calls. -/
def applyAll (b : SelectBuilder) (calls : List SelectCall) : Except Fault SelectBuilder :=
  calls.foldlM apply b

/-- The select record that has been built. -/
def record (b : SelectBuilder) (streamed : Bool) : Value :=
  .record .selectAll [b.table, listField b.fields, Collected.toField b.filter, listField b.joins,
    listField b.groupBy, Collected.toField b.having, listField b.orderBy, b.offset, b.limit,
    .bool streamed]

/-- The builder as a value. -/
def toValue (b : SelectBuilder) : Value := .builder (b.record false)

end SelectBuilder
end Querywright
