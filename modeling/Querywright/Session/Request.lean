/-
  Requests: queries from a descriptor, from named options, or from both. An option takes the
  place of the descriptor's field of that name.

  A request for one row ignores `limit` and `lazy` wherever they are given.
-/
import Querywright.Session.Basic
import Querywright.Statement.Change
import Querywright.Statement.Definition
import Querywright.Statement.Select

namespace Querywright.Request

/-- Options given by name. -/
abbrev Options := List (String × Value)

/-- Options as a map. -/
def optionEntries (options : Options) : Entries :=
  Entries.ofList (options.map fun (name, v) => (.text name, v))

/-- A descriptor as a map of its fields. -/
def fieldsOf (descriptor : Value) : Except Fault Entries :=
  match descriptor with
  | .map entries => .ok entries
  | .record kind fields => .ok (kind.toEntries fields)
  | .raw content => .ok [(.text "content", content)]
  | _ => .error .noMember

/-- The record that a descriptor and options describe. -/
def described (kind : RecordKind) (descriptor : Value) (options : Options) :
    Except Fault Value :=
  match descriptor with
  | .null => kind.fromMapping (.map (optionEntries options))
  | v =>
    if options.isEmpty then kind.coerce v
    else do kind.fromMapping (.map ((← fieldsOf v).merge (optionEntries options)))

/-- What a request for one row ignores. -/
def pagingNames : List String := ["limit", "lazy"]

/-- Whether a key is ignored by a request for one row. -/
def isPaging (key : Value) : Bool := pagingNames.any fun name => key.sameKey (.text name)

/-- Entries without paging. -/
def withoutPaging (entries : Entries) : Entries := entries.filter fun e => !isPaging e.1

/-- Options without paging. -/
def optionsWithoutPaging (options : Options) : Options :=
  options.filter fun o => !pagingNames.contains o.1

/-- A descriptor of one row without paging. A record is left alone unless options join it: its
paging is not read. -/
def singleRow (descriptor : Value) (options : Options) : Except Fault Value :=
  match descriptor with
  | .null => .ok .null
  | .map entries => .ok (.map (withoutPaging entries))
  | v =>
    if options.isEmpty then .ok v
    else do return .map (withoutPaging (← fieldsOf v))

/-- A query that is run by collecting its rows. -/
def collected (s : Statement) : Query Runner := { statement := s, runner := some .collecting }

/-- A request for one row. -/
def one (strict : Bool) (descriptor : Value) (options : Options) :
    Except Fault (Query Runner) := do
  let narrowed ← singleRow descriptor options
  let select ← described .selectOne narrowed (optionsWithoutPaging options)
  let statement ← Statement.selectOne strict select
  let count ← Statement.count strict select
  return { collected statement with companion := some (count, none) }

/-- Whether the rows of a select are streamed. -/
def streamedOf (select : Value) : Except Fault Value :=
  match select with
  | .record .selectAll fields => .ok (RecordKind.field .selectAll fields "lazy")
  | _ => .error .noMember

/-- A request for all rows. -/
def all (strict : Bool) (descriptor : Value) (options : Options) :
    Except Fault (Query Runner) := do
  let select ← described .selectAll descriptor options
  let streamed ← streamedOf select
  let statement ← Statement.selectAll strict select
  let count ← Statement.count strict select
  return {
    statement
    runner := some (if streamed.truth then .streaming else .collecting)
    streamed
    companion := some (count, some .collecting) }

/-- A request to insert. -/
def insert (strict : Bool) (descriptor : Value) (options : Options) :
    Except Fault (Query Runner) := do
  return collected (← Statement.insert strict (← described .insert descriptor options))

/-- A request to update. -/
def update (strict : Bool) (descriptor : Value) (options : Options) :
    Except Fault (Query Runner) := do
  return collected (← Statement.update strict (← described .update descriptor options))

/-- A request to delete, with the notices that writing it gives. -/
def delete (strict : Bool) (descriptor : Value) (options : Options) :
    List Statement.Notice × Except Fault (Query Runner) :=
  match described .delete descriptor options with
  | .error e => ([], .error e)
  | .ok record => ((Statement.delete strict record).1,
      (Statement.delete strict record).2.map collected)

/-- A request to define a table. -/
def createTable (descriptor : Value) (options : Options) : Except Fault (Query Runner) := do
  return collected (← Statement.createTable (← described .createTable descriptor options))

/-- A request to remove a table. -/
def dropTable (descriptor : Value) (options : Options) : Except Fault (Query Runner) := do
  return collected (← Statement.dropTable (← described .dropTable descriptor options))

/-- A request given as text. -/
def text (sql : String) : Except Fault (Query Runner) := do
  return collected (← Statement.raw (.text sql) .null (.keyword (.fetch .none)))

/-- The journal entry of a notice. -/
def noticeEntry (n : Statement.Notice) : Journal.Entry where
  level := .warning
  speaker := "query.compiler"
  message := n.message

/-- Journal the notices, then go on with the outcome. -/
def noticing {σ α : Type} (r : List Statement.Notice × Except Fault α) : Action σ α := do
  r.1.forM fun n => Action.log (noticeEntry n)
  Action.ofExcept r.2

end Querywright.Request
