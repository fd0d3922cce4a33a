/-
  The fields of each kind of record, and records made from mappings. A mapping may name a field
  as declared or, for six fields, in camel case; a later entry for the same field wins.

  * `fromMapping` refuses a name that the kind does not have, then a required field that is
    absent; otherwise every field has its entry's value or its default.
  * `coerce` accepts a record of the kind, a mapping, or a builder of such a record.
-/
import Querywright.Fault
import Querywright.Value.Display
import Querywright.Value.Key

namespace Querywright.RecordKind

/-- Camel-case names and the fields they stand for. -/
def camelNames : List (String × String) :=
  [("tableName", "table_name"), ("groupBy", "group_by"), ("orderBy", "order_by"),
    ("onConflict", "on_conflict"), ("ifNotExists", "if_not_exists"), ("ifExists", "if_exists")]

/-- The field that a name stands for. -/
def fieldOfName (name : String) : String :=
  (camelNames.lookup name).getD name

/-- The value of a field that is not given; a required field has none. -/
def default? : RecordKind → String → Option Value
  | .conditions, _ => some (.tuple [])
  | .join, name => if name = "table" then none else some .null
  | .selectOne, name => if name = "table_name" then none else some .null
  | .selectAll, name =>
    if name = "table_name" then none
    else if name = "lazy" then some (.bool false)
    else some .null
  | .upsert, name => if name = "column" ∨ name = "data" then none else some .null
  | .insert, name => if name = "table_name" ∨ name = "data" then none else some .null
  | .update, name =>
    if name = "table_name" then none
    else if name = "data" then some (.map [])
    else some .null
  | .delete, name => if name = "table_name" then none else some .null
  | .createTable, name =>
    if name = "if_not_exists" then some (.bool false) else none
  | .dropTable, name => if name = "if_exists" then some (.bool false) else none
  | .ssl, _ => some .null

/-- Whether records of the first kind are accepted where the second is wanted. -/
def accepts (wanted given : RecordKind) : Bool :=
  given == wanted || (wanted == .selectOne && given == .selectAll)

/-- The last value given for a field. -/
def assigned? (name : String) : List (String × Value) → Option Value
  | [] => none
  | (n, v) :: rest =>
    match assigned? name rest with
    | some later => some later
    | none => if n = name then some v else none

/-- The fields of a record, in order: given, or by default, or null. -/
def fill (kind : RecordKind) (given : List (String × Value)) : List Value :=
  kind.fieldNames.map fun name =>
    match assigned? name given with
    | some v => v
    | none => (kind.default? name).getD .null

/-- The first required field that is not given. -/
def firstMissing? (kind : RecordKind) (given : List (String × Value)) : Option String :=
  kind.fieldNames.find? fun name =>
    (assigned? name given).isNone && (kind.default? name).isNone

/-- The fields of a record that is given field by field: unknown names are refused, and so is a
required field that is left out. -/
def ofFields (kind : RecordKind) (given : List (String × Value)) : Except Fault (List Value) :=
  if given.all (kind.fieldNames.contains ·.1) && (kind.firstMissing? given).isNone then
    .ok (kind.fill given)
  else .error .unsupported

/-- The fields that the entries of a mapping name. -/
def named (kind : RecordKind) : Entries → Except Fault (List (String × Value))
  | [] => .ok []
  | (key, v) :: rest =>
    let field? := key.asText?.map fieldOfName
    match field?.filter (kind.fieldNames.contains ·) with
    | some name => (named kind rest).map ((name, v) :: ·)
    | none =>
      .error (.shape (.unknownField key.display kind.name (kind.fieldNames.mergeSort (· ≤ ·))))

/-- The fields of a record from a mapping. -/
def fromEntries (kind : RecordKind) (entries : Entries) : Except Fault (List Value) := do
  let given ← kind.named entries
  match kind.firstMissing? given with
  | some name => throw (.missingData (kind.name.map Char.toLower) name)
  | none => return kind.fill given

/-- A record from a mapping. -/
def fromMapping (kind : RecordKind) (v : Value) : Except Fault Value :=
  match v with
  | .map entries => (kind.fromEntries entries).map (.record kind ·)
  | _ => .error .noMember

/-- A record of the kind from a record, a mapping or a builder. -/
def coerce (kind : RecordKind) (v : Value) : Except Fault Value :=
  let refused : Fault := .shape (.notDescriptor kind.name v.kindName)
  match v with
  | .record given _ => if kind.accepts given then .ok v else .error refused
  | .map entries => (kind.fromEntries entries).map (.record kind ·)
  | .builder options =>
    match options with
    | .record given _ => if kind.accepts given then .ok options else .error refused
    | _ => .error refused
  | _ => .error refused

/-- A field of a record by its name. -/
def field (kind : RecordKind) (fields : List Value) (name : String) : Value :=
  ((kind.fieldNames.zip fields).lookup name).getD .null

/-- A record as a mapping from its fields' names. -/
def toEntries (kind : RecordKind) (fields : List Value) : Entries :=
  (kind.fieldNames.zip fields).map fun (name, v) => (.text name, v)

end Querywright.RecordKind
