/-
  Updates and deletes.

  In an update the values of WHERE are numbered first and those of SET after them, although SET
  comes first in the text; so every index of the WHERE text is written out.
-/
import Querywright.Clause.Row
import Querywright.Select.Compile
import Querywright.Statement.Insert

namespace Querywright.Statement

/-- An update from a descriptor. -/
def update (strict : Bool) (v : Value) : Except Fault Statement := do
  match ← RecordKind.coerce .update v with
  | .record _ fields =>
    let field := RecordKind.field .update fields
    let table ← requireTable "update" (field "table_name")
    let data := field "data"
    if !data.truth then throw (.missingData "update" "data")
    match data.asMap? with
    | none => throw (.shape (.dataNotMap "Update data" data.kindName))
    | some data =>
      let conflict := field "on_conflict"
      if isUpsert conflict then throw (.shape .updateConflict)
      let filter ← (Select.readFilter Select.ofValue (field "where")).compile strict "WHERE" 0
      let filter ← filter.numbered
      let assigned ← Clause.assignments data filter.arguments.length
      let ending ← Clause.returning (field "returning")
      return ⟨.text ("UPDATE " ++ Clause.conflictKeyword conflict ++ table ++ " SET "
          ++ assigned ++ filter.clause "WHERE" ++ ending),
        filter.arguments ++ Clause.boundValues data.values, .all⟩
  | _ => throw .unsupported

/-- What a delete says while it is written. -/
inductive Notice where
  /-- Nothing limits the rows of the table that are deleted. -/
  | unfiltered (table : String)
  deriving DecidableEq, Repr

/-- The wording. -/
def Notice.message : Notice → String
  | .unfiltered table => "Compiling DELETE without WHERE on table " ++ table

/-- The text of a delete from its written filter. -/
def deleteText (strict : Bool) (table : String) (filter : FilterPiece) (field : String → Value) :
    Except Fault Statement := do
  let returning ← Clause.returning (field "returning")
  let orderBy ← Clause.orderBy (field "order_by")
  let limit ← Clause.limit strict (field "limit")
  let offset ← Clause.offset strict (field "offset")
  return ⟨.text ("DELETE FROM " ++ table ++ filter.clause "WHERE" ++ returning ++ orderBy ++ limit
      ++ offset),
    filter.arguments, .all⟩

/-- A delete from a descriptor, and the notices that it gives even if it fails after them. -/
def delete (strict : Bool) (v : Value) : List Notice × Except Fault Statement :=
  let start : Except Fault (String × FilterPiece × (String → Value)) := do
    match ← RecordKind.coerce .delete v with
    | .record _ fields =>
      let field := RecordKind.field .delete fields
      let table ← requireTable "delete" (field "table_name")
      let filter ← (Select.readFilter Select.ofValue (field "where")).compile strict "WHERE" 0
      return (table, filter, field)
    | _ => throw .unsupported
  match start with
  | .error e => ([], .error e)
  | .ok (table, filter, field) =>
    (if filter.isEmpty then [.unfiltered table] else [], deleteText strict table filter field)

end Querywright.Statement
