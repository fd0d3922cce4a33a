/-
  From how many milliseconds on a statement is slow: what is asked for, else what the
  environment says, else a default. A text in the environment that is no integer is ignored with
  a warning.
-/
import Querywright.Action
import Querywright.Value.Number

namespace Querywright.Adapter

/-- The name of the environment variable. -/
def thresholdVariable : String := "BLAZEQB_SLOW_QUERY_MS"

/-- That the environment's text was ignored. -/
def ignoredThreshold (held : String) : Journal.Entry where
  level := .warning
  speaker := "config"
  message := "Ignoring invalid " ++ thresholdVariable ++ " value " ++ Text.quote held

/-- The threshold in milliseconds that is asked for or held by the environment; none leaves it to
the default. -/
def threshold? {σ : Type} (asked : Value) (held : Option String) : Action σ (Option Int) :=
  match asked with
  | .null =>
    match held.filter (· != "") with
    | none => return none
    | some text =>
      match (Value.text text).toInteger with
      | .ok n => return some n
      | .error _ => do
        Action.log (ignoredThreshold text)
        return none
  | v => Action.ofExcept (v.toInteger.map some)

/-- The threshold in milliseconds. -/
def threshold {σ : Type} (fallback : Int) (asked : Value) (held : Option String) :
    Action σ Int := do
  return (← threshold? asked held).getD fallback

end Querywright.Adapter
