/-
  The text of a value. `display` is what a statement or message shows; `literal` is what a value
  looks like inside another one, with texts quoted. They differ on texts, reserved words and raw
  SQL. `kindName` is the word for the value's kind in messages.
-/
import Querywright.Number.Decimal
import Querywright.Text.Quoted
import Querywright.Value.Basic

namespace Querywright

namespace RecordKind

/-- The name of the kind. -/
def name : RecordKind → String
  | .conditions => "Where"
  | .join => "Join"
  | .selectOne => "SelectOne"
  | .selectAll => "SelectAll"
  | .upsert => "Upsert"
  | .insert => "Insert"
  | .update => "Update"
  | .delete => "Delete"
  | .createTable => "CreateTable"
  | .dropTable => "DropTable"
  | .ssl => "SSLConfig"

/-- Every kind. -/
def all : List RecordKind :=
  [.conditions, .join, .selectOne, .selectAll, .upsert, .insert, .update, .delete, .createTable,
    .dropTable, .ssl]

/-- The kind with that name. -/
def ofName? (s : String) : Option RecordKind :=
  all.find? fun k => k.name == s

/-- The names of the fields, in order. -/
def fieldNames : RecordKind → List String
  | .conditions => ["conditions", "params"]
  | .join => ["table", "on", "type", "alias"]
  | .selectOne =>
    ["table_name", "fields", "where", "join", "group_by", "having", "order_by", "offset"]
  | .selectAll =>
    ["table_name", "fields", "where", "join", "group_by", "having", "order_by", "offset", "limit",
      "lazy"]
  | .upsert => ["column", "data", "where"]
  | .insert => ["table_name", "data", "returning", "on_conflict"]
  | .update => ["table_name", "data", "where", "returning", "on_conflict"]
  | .delete => ["table_name", "where", "returning", "order_by", "limit", "offset"]
  | .createTable => ["table_name", "schema", "if_not_exists"]
  | .dropTable => ["table_name", "if_exists"]
  | .ssl => ["mode", "rootcert", "cert", "key"]

end RecordKind

namespace Value

/-- The word for the kind of a value. -/
def kindName : Value → String
  | .null => "NoneType"
  | .bool _ => "bool"
  | .int _ => "int"
  | .float _ => "float"
  | .text _ => "str"
  | .bytes _ => "bytes"
  | .byteArray _ => "bytearray"
  | .list _ => "list"
  | .tuple _ => "tuple"
  | .set _ => "set"
  | .map _ => "dict"
  | .raw _ => "Raw"
  | .keyword k => k.family
  | .record kind _ => kind.name
  | .builder _ => "SelectBuilder"

/-- Put commas between. -/
def commas (parts : List String) : String := ", ".intercalate parts

mutual

/-- A value inside another one. -/
def literal : Value → String
  | .null => "None"
  | .bool b => if b then "True" else "False"
  | .int n => toString n
  | .float x => x.text
  | .text s => Text.quote s
  | .bytes bs => Text.quoteBytes bs
  | .byteArray bs => Text.quoteByteArray bs
  | .list items => "[" ++ commas (literals items) ++ "]"
  | .tuple [item] => "(" ++ literal item ++ ",)"
  | .tuple items => "(" ++ commas (literals items) ++ ")"
  | .set [] => "set()"
  | .set items => "\x7b" ++ commas (literals items) ++ "\x7d"
  | .map entries => "\x7b" ++ commas (entryLiterals entries) ++ "\x7d"
  | .raw content => "Raw(content=" ++ literal content ++ ")"
  | .keyword k => "<" ++ k.display ++ ": " ++ Text.quote k.word ++ ">"
  | .record kind fields =>
    kind.name ++ "(" ++
      commas (List.zipWith (fun name shown => name ++ "=" ++ shown) kind.fieldNames
        (literals fields)) ++ ")"
  | .builder _ => "<SelectBuilder object>"

/-- Each value inside another one. -/
def literals : List Value → List String
  | [] => []
  | v :: rest => literal v :: literals rest

/-- Each entry of a map. -/
def entryLiterals : List (Value × Value) → List String
  | [] => []
  | (k, v) :: rest => (literal k ++ ": " ++ literal v) :: entryLiterals rest

end

/-- A value on its own. -/
def display : Value → String
  | .text s => s
  | .keyword k => k.display
  | .raw content => display content
  | v => literal v

/-- A value as SQL keyword text: a reserved word is written as its SQL word. -/
def keywordText : Value → String
  | .keyword k => k.word
  | v => v.display

end Value
end Querywright
