/-
  Joins of a select. One join or a list of them may be given, each as a record or a mapping; the
  joined table is a table name, or a select given as a record, a mapping or a builder.
-/
import Querywright.Descriptor.Schema

namespace Querywright

/-- One join; the table is a text or a select record. -/
structure Join where
  table : Value
  on : Value
  kind : Value
  tableAlias : Value

namespace Join

/-- The join as a record. -/
def toValue (j : Join) : Value := .record .join [j.table, j.on, j.kind, j.tableAlias]

/-- Whether the value is a record of a select. -/
def isSelect : Value → Bool
  | .record kind _ => kind == .selectOne || kind == .selectAll
  | _ => false

/-- What the table of a join stands for: a mapping and a builder become select records. -/
def tableOf (table : Value) : Except Fault Value :=
  match table with
  | .map _ => RecordKind.fromMapping .selectAll table
  | .builder options => .ok options
  | v => .ok v

/-- Check that a join's table is a text or a select, and is given. -/
def checkTable (table : Value) : Except Fault Value :=
  if (table.isText || isSelect table) && table.truth then .ok table
  else .error (.shape .joinTable)

/-- The table of a join. -/
def readTable (table : Value) : Except Fault Value := do
  checkTable (← tableOf table)

/-- Read one join. -/
def ofValue (v : Value) : Except Fault Join := do
  match ← RecordKind.coerce .join v with
  | .record _ fields =>
    return ⟨← readTable (fields.getD 0 .null), fields.getD 1 .null, fields.getD 2 .null,
      fields.getD 3 .null⟩
  | _ => throw .unsupported

/-- The values of one join or of a list of joins. -/
def given (v : Value) : List Value :=
  if v.truth then v.sequence?.getD [v] else []

/-- Read the joins of a select. -/
def ofValues (v : Value) : Except Fault (List Join) :=
  (given v).mapM ofValue

/-- A join as SQL; a subquery stands in parentheses in place of the table. -/
def render (j : Join) (subquery : Option String) : String :=
  (if j.kind.truth then j.kind.keywordText ++ " " else "")
    ++ "JOIN " ++ (match subquery with
      | some sql => "(" ++ sql ++ ")"
      | none => j.table.display)
    ++ (if j.tableAlias.truth then " AS " ++ j.tableAlias.display else "")
    ++ (if j.on.truth then " ON " ++ j.on.display else "")

/-- The joins of a select as SQL, where there are any. -/
def renderAll (given : Bool) (rendered : List String) : String :=
  if given then " " ++ " ".intercalate rendered else ""

end Join
end Querywright
