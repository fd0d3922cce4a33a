/-
  Calls on builders by name, as callers that hold data rather than code make them. An unknown
  name is a member that the builder does not have; a known one with the wrong number of arguments
  is not supported.
-/
import Querywright.Builder.Change
import Querywright.Builder.Select

namespace Querywright

/-- A call by name. -/
abbrev NamedCall := String × List Value

namespace NamedCall

/-- A call of one argument. -/
def single {α : Type} (make : Value → α) : List Value → Except Fault α
  | [v] => .ok (make v)
  | _ => .error .unsupported

/-- A call of two arguments. -/
def double {α : Type} (make : Value → Value → α) : List Value → Except Fault α
  | [v, w] => .ok (make v w)
  | _ => .error .unsupported

/-- A call of one argument and an optional second one. -/
def optional {α : Type} (make : Value → Value → α) : List Value → Except Fault α
  | [v] => .ok (make v .null)
  | arguments => double make arguments

/-- The fault of a call without arguments that ends in one. -/
def ending (c : NamedCall) (e : Fault) : Fault := if c.2.isEmpty then e else .unsupported

/-- A call on a select builder. -/
def toSelect (c : NamedCall) : Except Fault SelectCall :=
  match c.1 with
  | "table_name" => single .table c.2
  | "fields" => single .fields c.2
  | "where" => optional .filter c.2
  | "where_in" => double .filterIn c.2
  | "join" => single .join c.2
  | "group_by" => single .groupBy c.2
  | "having" => optional .having c.2
  | "order_by" => single .orderBy c.2
  | "limit" => single .limit c.2
  | "offset" => single .offset c.2
  | _ => .error .noMember

/-- A call on an insert builder. -/
def toInsert (c : NamedCall) : Except Fault InsertCall :=
  match c.1 with
  | "values" => single .values c.2
  | "returning" => single .returning c.2
  | "on_conflict" => single .onConflict c.2
  | _ => .error .noMember

/-- A call on an update builder. -/
def toUpdate (c : NamedCall) : Except Fault UpdateCall :=
  match c.1 with
  | "set" => single .set c.2
  | "where" => optional .filter c.2
  | "returning" => single .returning c.2
  | "on_conflict" => single .onConflict c.2
  | _ => .error .noMember

/-- A call on a delete builder. -/
def toDelete (c : NamedCall) : Except Fault DeleteCall :=
  match c.1 with
  | "where" => optional .filter c.2
  | "returning" => single .returning c.2
  | "order_by" => single .orderBy c.2
  | "limit" => single .limit c.2
  | "offset" => single .offset c.2
  | _ => .error .noMember

end NamedCall
end Querywright
