/-
  Fluent construction of inserts, updates and deletes. Every call gives a new builder.
-/
import Querywright.Builder.Parts
import Querywright.Statement.Change

namespace Querywright

open Builder

/-- The table of a builder's statement must be given. -/
def requireBuilderTable (operation : String) (table : Value) : Except Fault Unit :=
  if table.truth then .ok () else .error (.missingData operation "table_name")

/-- The data of a builder's statement must be given. -/
def requireBuilderData (operation : String) (data : Value) : Except Fault Unit :=
  if data.truth then .ok () else .error (.missingData operation "data")

/-- What an insert builder has collected. -/
structure InsertBuilder where
  table : Value
  data : Value := .null
  returning : Value := .null
  conflict : Value := .null

/-- A call on an insert builder. -/
inductive InsertCall where
  | values (data : Value)
  | returning (columns : Value)
  | onConflict (action : Value)

namespace InsertBuilder

/-- The builder after a call. -/
def apply (b : InsertBuilder) : InsertCall → InsertBuilder
  | .values data => { b with data := data }
  | .returning columns => { b with returning := columns }
  | .onConflict action => { b with conflict := action }

/-- The builder after several calls. -/
def applyAll (b : InsertBuilder) (calls : List InsertCall) : InsertBuilder :=
  calls.foldl apply b

/-- The statement that has been built. -/
def statement (strict : Bool) (b : InsertBuilder) : Except Fault Statement := do
  requireBuilderTable "insert" b.table
  requireBuilderData "insert" b.data
  Statement.insert strict (.record .insert [b.table, b.data, b.returning, b.conflict])

end InsertBuilder

/-- What an update builder has collected. -/
structure UpdateBuilder where
  table : Value
  data : Entries := []
  filter : Option Collected := none
  returning : Value := .null
  conflict : Value := .null

/-- A call on an update builder. -/
inductive UpdateCall where
  | set (data : Value)
  | filter (conditions params : Value)
  | returning (columns : Value)
  | onConflict (action : Value)

namespace UpdateBuilder

/-- The builder after a call. Columns that are set again take their new value in their old
place. -/
def apply (b : UpdateBuilder) : UpdateCall → Except Fault UpdateBuilder
  | .set (.map data) => .ok { b with data := b.data.merge data }
  | .set _ => .error .unsupported
  | .filter conditions params => do
    return { b with filter := ← Collected.extend b.filter conditions params }
  | .returning columns => .ok { b with returning := columns }
  | .onConflict action => .ok { b with conflict := action }

/-- The builder after several calls. -/
def applyAll (b : UpdateBuilder) (calls : List UpdateCall) : Except Fault UpdateBuilder :=
  calls.foldlM apply b

/-- The statement that has been built. -/
def statement (strict : Bool) (b : UpdateBuilder) : Except Fault Statement := do
  requireBuilderTable "update" b.table
  requireBuilderData "update" (.map b.data)
  Statement.update strict
    (.record .update [b.table, .map b.data, Collected.toField b.filter, b.returning, b.conflict])

end UpdateBuilder

/-- What a delete builder has collected. -/
structure DeleteBuilder where
  table : Value
  filter : Option Collected := none
  returning : Value := .null
  orderBy : Option (List Value) := none
  limit : Value := .null
  offset : Value := .null

/-- A call on a delete builder. -/
inductive DeleteCall where
  | filter (conditions params : Value)
  | returning (columns : Value)
  | orderBy (items : Value)
  | limit (n : Value)
  | offset (n : Value)

namespace DeleteBuilder

/-- The builder after a call. -/
def apply (b : DeleteBuilder) : DeleteCall → Except Fault DeleteBuilder
  | .filter conditions params => do
    return { b with filter := ← Collected.extend b.filter conditions params }
  | .returning columns => .ok { b with returning := columns }
  | .orderBy items => .ok { b with orderBy := extendList b.orderBy items }
  | .limit n => .ok { b with limit := n }
  | .offset n => .ok { b with offset := n }

/-- The builder after several calls. -/
def applyAll (b : DeleteBuilder) (calls : List DeleteCall) : Except Fault DeleteBuilder :=
  calls.foldlM apply b

/-- The statement that has been built, with the notices that writing it gives. -/
def statement (strict : Bool) (b : DeleteBuilder) :
    List Statement.Notice × Except Fault Statement :=
  match requireBuilderTable "delete" b.table with
  | .error e => ([], .error e)
  | .ok () =>
    Statement.delete strict
      (.record .delete [b.table, Collected.toField b.filter, b.returning, listField b.orderBy,
        b.limit, b.offset])

end DeleteBuilder
end Querywright
