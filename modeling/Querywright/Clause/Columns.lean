/-
  Clauses that list columns. Nothing given lists none, a text is one entry, anything else is
  walked through and each item shown. Entries are texts or reserved words, which a clause writes as
  their SQL words.
-/
import Querywright.Value.Number

namespace Querywright.Clause

/-- The entries of a column list. -/
def columns (v : Value) : Except Fault (List Value) :=
  if !v.truth then .ok []
  else if v.isText then .ok [v]
  else v.items.map (·.map fun item => .text item.display)

/-- Entries with commas between them. -/
def listed (entries : List Value) : String := Value.commas (entries.map Value.keywordText)

/-- A clause of a column list: nothing for no column. -/
def columnClause (lead : String) (v : Value) : Except Fault String := do
  match ← columns v with
  | [] => return ""
  | cs => return lead ++ listed cs

/-- The columns of a select; all of them when none is given. -/
def fields (v : Value) : Except Fault String := do
  match ← columns v with
  | [] => return "*"
  | cs => return listed cs

def groupBy (v : Value) : Except Fault String := columnClause " GROUP BY " v

def returning (v : Value) : Except Fault String := columnClause " RETURNING " v

/-- The columns whose conflict an upsert handles; there must be one. -/
def conflictTarget (v : Value) : Except Fault String := do
  match ← columns v with
  | [] => throw (.shape .conflictTarget)
  | cs => return "(" ++ listed cs ++ ")"

/-- The conflict keyword of an insert or update. -/
def conflictKeyword (v : Value) : String :=
  if v.truth then "OR " ++ v.keywordText ++ " " else ""

mutual

/-- The entries of an ordering: a text is one entry, a map has a column and a direction per
entry, and anything else is walked through. -/
def orderItems : Value → Except Fault (List Value)
  | .text s => .ok (if s = "" then [] else [.text s])
  | .keyword k => .ok [.keyword k]
  | .map entries => .ok (entries.map fun e => .text (e.1.display ++ " " ++ e.2.keywordText))
  | .list items => orderAll items
  | .tuple items => orderAll items
  | .set items => orderAll items
  | .bytes bs => if bs.all (· == 0) then .ok [] else .error .unsupported
  | .byteArray bs => if bs.all (· == 0) then .ok [] else .error .unsupported
  | v => if v.truth then .error .unsupported else .ok []

/-- The entries of several orderings. -/
def orderAll : List Value → Except Fault (List Value)
  | [] => .ok []
  | v :: rest => do
    let first ← orderItems v
    let more ← orderAll rest
    return first ++ more

end

def orderBy (v : Value) : Except Fault String := do
  match ← orderItems v with
  | [] => return ""
  | items => return " ORDER BY " ++ listed items

/-- A row bound. Null is no bound; a value that counts as not given is none either, unless
explicit zeros are kept. -/
def bound (lead : String) (strict : Bool) (v : Value) : Except Fault String :=
  match v with
  | .null => .ok ""
  | v =>
    if !strict && !v.truth then .ok ""
    else v.toInteger.map fun n => lead ++ toString n

def limit (strict : Bool) (v : Value) : Except Fault String := bound " LIMIT " strict v

def offset (strict : Bool) (v : Value) : Except Fault String := bound " OFFSET " strict v

end Querywright.Clause
