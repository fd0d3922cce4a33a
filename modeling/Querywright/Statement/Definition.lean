/-
  Statements that define tables, and statements given as text.
-/
import Querywright.Select.Compile

namespace Querywright.Statement

/-- The trimmed text of a value that can be trimmed. -/
def trimmed (v : Value) : Except Fault String :=
  match v with
  | .text s => .ok (Text.strip s)
  | .keyword k => .ok (Text.strip k.word)
  | .bytes bs => .ok (Text.quoteBytes (trimBytes bs))
  | .byteArray bs => .ok (Text.quoteByteArray (trimBytes bs))
  | _ => .error .noMember
where
  space (b : UInt8) : Bool := Numeral.isSpace (Char.ofNat b.toNat)
  trimBytes (bs : List UInt8) : List UInt8 :=
    ((bs.dropWhile space).reverse.dropWhile space).reverse

/-- Whether nothing is left of the value after trimming. -/
def blankWhenTrimmed (v : Value) : Except Fault Bool :=
  match v with
  | .text s => .ok (Text.isBlankText s)
  | .keyword _ => .ok false
  | .bytes bs => .ok (trimmed.trimBytes bs).isEmpty
  | .byteArray bs => .ok (trimmed.trimBytes bs).isEmpty
  | _ => .error .noMember

/-- The definition of a table. -/
def createTable (v : Value) : Except Fault Statement := do
  match ← RecordKind.coerce .createTable v with
  | .record _ fields =>
    let field := RecordKind.field .createTable fields
    let table ← requireTable "create table" (field "table_name")
    let body := field "schema"
    if !body.truth then throw (.missingData "create table" "schema")
    if ← blankWhenTrimmed body then throw (.missingData "create table" "schema")
    let guard := if (field "if_not_exists").truth then "IF NOT EXISTS " else ""
    return { query := .text ("CREATE TABLE " ++ guard ++ table ++ " (" ++ (← trimmed body) ++ ")") }
  | _ => throw .unsupported

/-- The removal of a table. -/
def dropTable (v : Value) : Except Fault Statement := do
  match ← RecordKind.coerce .dropTable v with
  | .record _ fields =>
    let field := RecordKind.field .dropTable fields
    let table ← requireTable "drop table" (field "table_name")
    let guard := if (field "if_exists").truth then "IF EXISTS " else ""
    return { query := .text ("DROP TABLE " ++ guard ++ table) }
  | _ => throw .unsupported

/-- The fetch mode of a value: the reserved word itself or its SQL word. -/
def fetchMode (v : Value) : Except Fault FetchMode :=
  match [FetchMode.none, .one, .all].find? fun m => v.asText? == some m.word with
  | some m => .ok m
  | none => .error (.notFetchMode v.literal)

/-- A statement given by its query with its values. The query is kept as it is given, if it can be
trimmed and something is left; no values may be given as anything that counts as not given. -/
def raw (query arguments fetch : Value) : Except Fault Statement := do
  if !query.truth then throw (.missingData "raw" "query")
  if ← blankWhenTrimmed query then throw (.missingData "raw" "query")
  let bound ← if arguments.truth then arguments.items else pure []
  return ⟨query, bound, ← fetchMode fetch⟩

end Querywright.Statement
