/-
  Arguments of a call, by place and by name, and the parameters they are meant for. A call with
  too many arguments, an unknown name, a parameter given twice or one left out is not supported.

  `Arguments.bind` gives each parameter its value, in order.
-/
import Querywright.Fault

namespace Querywright

/-- A parameter. Those that can be given by place come first. -/
structure Parameter where
  name : String
  byPlace : Bool := true
  /-- The value when none is given; without it the parameter is required. -/
  default? : Option Value := none

/-- A parameter that must be given. -/
def Parameter.required (name : String) : Parameter := { name }

/-- A parameter that is only given by name, and its default. -/
def Parameter.option (name : String) (default : Value) : Parameter :=
  { name, byPlace := false, default? := some default }

/-- The arguments of a call. -/
structure Arguments where
  placed : List Value := []
  named : List (String × Value) := []

namespace Arguments

/-- Whether every name is the name of a parameter. -/
def areKnown (parameters : List Parameter) (named : List (String × Value)) : Bool :=
  named.all fun a => parameters.any (·.name == a.1)

/-- The values of the parameters. -/
def assign (named : List (String × Value)) :
    List Parameter → List Value → Except Fault (List Value)
  | [], [] => .ok []
  | [], _ :: _ => .error .unsupported
  | p :: parameters, v :: placed =>
    if p.byPlace && (named.lookup p.name).isNone then
      (assign named parameters placed).map (v :: ·)
    else .error .unsupported
  | p :: parameters, [] =>
    match named.lookup p.name <|> p.default? with
    | some v => (assign named parameters []).map (v :: ·)
    | none => .error .unsupported

/-- The value of each parameter. -/
def bind (a : Arguments) (parameters : List Parameter) : Except Fault (List Value) :=
  if areKnown parameters a.named then assign a.named parameters a.placed else .error .unsupported

end Arguments
end Querywright
