/-
  The forms of statement that a descriptor can be compiled to, and statements given by their
  parts.
-/
import Querywright.Statement.Change
import Querywright.Statement.Definition
import Querywright.Statement.Select

namespace Querywright.Statement

/-- A form of statement. -/
inductive Form where
  | selectOne
  | selectAll
  | count
  | insert
  | update
  | delete
  | createTable
  | dropTable
  deriving DecidableEq, Repr

/-- The statement of a descriptor, and the notices that writing it gives. Only a delete gives
any. -/
def compile (strict : Bool) (f : Form) (v : Value) : List Notice × Except Fault Statement :=
  match f with
  | .selectOne => ([], selectOne strict v)
  | .selectAll => ([], selectAll strict v)
  | .count => ([], count strict v)
  | .insert => ([], insert strict v)
  | .update => ([], update strict v)
  | .delete => delete strict v
  | .createTable => ([], createTable v)
  | .dropTable => ([], dropTable v)

/-- A statement given by its query, optionally with values, optionally with a fetch mode. -/
def ofParts (parts : List Value) : Except Fault Statement :=
  match parts with
  | [q] => raw q .null (.keyword (.fetch .none))
  | [q, a] => raw q a (.keyword (.fetch .none))
  | [q, a, f] => raw q a f
  | _ => .error .unsupported

end Querywright.Statement
