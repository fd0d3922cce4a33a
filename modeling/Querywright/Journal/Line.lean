/-
  Journal lines. An entry at or above the level that is written becomes a line with its level,
  the current correlation id, the speaker and the message. An id is drawn when a line or a reader
  needs one and none is set; it then stays until another one is set.
-/
import Querywright.Journal.Basic

namespace Querywright.Journal

/-- The current correlation id, and how many have been drawn. -/
structure Correlation where
  current : Option String := none
  drawn : Nat := 0
  deriving DecidableEq, Repr

namespace Correlation

/-- Draw a new id from the source and keep it. -/
def draw (source : Nat → String) (c : Correlation) : String × Correlation :=
  (source c.drawn, ⟨some (source c.drawn), c.drawn + 1⟩)

/-- Set the id; without a text a new one is drawn. -/
def set (source : Nat → String) (given : Option String) (c : Correlation) :
    String × Correlation :=
  match given.filter (· != "") with
  | some id => (id, { c with current := some id })
  | none => c.draw source

/-- The id, drawn when there is none. -/
def get (source : Nat → String) (c : Correlation) : String × Correlation :=
  match c.current with
  | some id => (id, c)
  | none => c.draw source

end Correlation

/-- The line of an entry under an id. -/
def Entry.line (e : Entry) (id : String) : String :=
  " | ".intercalate [e.level.name, id, e.logger, e.message]

/-- Write an entry, if its level is written. -/
def write (source : Nat → String) (least : Level) (e : Entry) (c : Correlation) :
    Option String × Correlation :=
  if least.rank ≤ e.level.rank then
    let (id, c) := c.get source
    (some (e.line id), c)
  else (none, c)

end Querywright.Journal
