/-
  Faults of what was asked for. What is computed from values alone, such as the translation of a
  statement or the shape of a row, never fails for a reason that lies with a driver, a connection
  or a transaction (`Owns`).
-/
import Querywright.Connection.Settings
import Querywright.Dialect
import Querywright.Proofs.Outcome
import Querywright.Result.Basic
import Querywright.Result.Row

namespace Querywright

/-- The fault is one of what was asked for. -/
def Fault.isOwn : Fault → Bool
  | .setting .. | .connectionRefused .. | .executionRefused .. | .driver _ | .transaction _ => false
  | _ => true

variable {α β : Type}

/-- A step that fails only by what it was asked for. -/
def Owns (r : Except Fault α) : Prop := ∀ e, r = .error e → e.isOwn = true

theorem owns_ok (x : α) : Owns (.ok x) := failsWith_ok x

theorem owns_error {e : Fault} (h : e.isOwn = true) : Owns (α := α) (.error e) := failsWith_error h

theorem Owns.bind {r : Except Fault α} {f : α → Except Fault β} (h : Owns r)
    (hnext : ∀ x, Owns (f x)) : Owns (r >>= f) :=
  FailsWith.bind h hnext

theorem Owns.map {r : Except Fault α} (h : Owns r) (f : α → β) : Owns (r.map f) :=
  FailsWith.map h f

theorem Owns.mapM {f : α → Except Fault β} (h : ∀ x, Owns (f x)) (xs : List α) :
    Owns (xs.mapM f) :=
  FailsWith.mapM h xs

/-! ## Values -/

namespace Value

theorem owns_items (v : Value) : Owns v.items := by
  unfold items
  split
  · exact owns_ok _
  · exact owns_error rfl

theorem owns_texts (values : List Value) : Owns (texts values) := by
  cases values with
  | nil => exact owns_ok []
  | cons v rest =>
    unfold texts
    split
    · exact owns_ok _
    · exact owns_error rfl

/-- Reading a numeral. -/
theorem owns_numeral (shown : String) (r : Except NumeralFault Int) :
    Owns (match r with
      | .ok n => .ok n
      | .error e => .error (numeralFault shown e)) := by
  cases r with
  | ok n => exact owns_ok n
  | error e =>
    refine owns_error ?_
    cases e <;> rfl

theorem owns_ofBytes (bs : List UInt8) : Owns (ofBytes bs) := owns_numeral _ _

theorem owns_toInteger (v : Value) : Owns v.toInteger := by
  cases v with
  | int n | bool b => exact owns_ok _
  | float x =>
    unfold toInteger
    split
    case h_4 => split <;> first | exact owns_ok _ | exact owns_error rfl
    all_goals first | exact owns_ok _ | exact owns_error rfl | contradiction
  | text s => exact owns_numeral _ _
  | keyword k => exact owns_numeral _ _
  | bytes bs => exact owns_ofBytes bs
  | byteArray bs => exact owns_ofBytes bs
  | _ => exact owns_error rfl

end Value

/-! ## Statements -/

namespace Placeholder

theorem owns_numbers (s : List Char) : Owns (numbers s) := by
  unfold numbers
  dsimp only
  split
  · exact owns_error rfl
  · exact owns_ok _

theorem owns_resolve (s : String) (start : Int) : Owns (resolve s start) :=
  (owns_numbers s.toList).bind fun _ => owns_ok _

end Placeholder

theorem isOwn_mismatch (clause : String) (query : Option String) (expected received : Int) :
    (mismatch clause query expected received).isOwn = true := by
  unfold mismatch
  split <;> rfl

namespace Dialect

theorem owns_argumentAt (arguments : List Value) (index : Int) :
    Owns (argumentAt arguments index) := by
  unfold argumentAt
  dsimp only
  split
  · exact owns_ok _
  · exact owns_error rfl

theorem owns_toFormat (sql : String) (arguments : List Value) : Owns (toFormat sql arguments) := by
  refine (Placeholder.owns_resolve sql 0).bind fun indexes => ?_
  dsimp only
  split
  · exact owns_error (isOwn_mismatch _ _ _ _)
  · exact (Owns.mapM (owns_argumentAt arguments) indexes).bind fun _ => owns_ok _

theorem owns_translate (d : Dialect) (s : Statement) : Owns (d.translate s) := by
  cases d with
  | sqlite => exact owns_ok _
  | postgres =>
    rw [translate]
    split
    · exact (owns_toFormat _ _).map _
    · exact owns_error rfl

end Dialect

theorem Statement.owns_command (sql : Value) : Owns (command sql) := by
  unfold command
  split <;> first | exact owns_ok _ | exact owns_error rfl

/-! ## Rows -/

namespace Row

theorem owns_ofPairs (pairs : List (Value × Value)) : Owns (ofPairs pairs) := by
  unfold ofPairs
  split
  · exact owns_ok _
  · exact owns_error rfl

theorem owns_valueAt (names values : List Value) (name : Value) (place : Nat) :
    Owns (valueAt names values name place) := by
  unfold valueAt
  split
  · exact owns_ok _
  · exact owns_error rfl

theorem owns_cells (names values : List Value) (places : List (Value × Nat)) :
    Owns (cells names values places) := by
  induction places with
  | nil => exact owns_ok []
  | cons p rest ih =>
    obtain ⟨name, place⟩ := p
    refine (owns_valueAt names values name place).bind fun v => ?_
    dsimp only
    split
    · exact owns_error rfl
    · exact ih.bind fun _ => owns_ok _

theorem owns_shape (columns : List Value) (row : Row) : Owns (row.shape columns) := by
  cases row with
  | plain values => exact owns_ofPairs _
  | keyed names values => exact (owns_cells names values _).map _

end Row

/-! ## Connection settings -/

namespace Settings

theorem owns_pairOf (position : Nat) (v : Value) : Owns (pairOf position v) := by
  refine v.owns_items.bind fun items => ?_
  split
  · split
    · exact owns_ok _
    · exact owns_error rfl
  · exact owns_error rfl

theorem owns_pairsFrom (position : Nat) (values : List Value) :
    Owns (pairsFrom position values) := by
  induction values generalizing position with
  | nil => exact owns_ok []
  | cons v rest ih => exact (owns_pairOf position v).bind fun _ => (ih _).bind fun _ => owns_ok _

theorem owns_entriesOf (v : Value) : Owns (entriesOf v) := by
  unfold entriesOf
  split
  · exact owns_ok []
  · split
    · exact owns_ok _
    · exact v.owns_items.bind fun _ => (owns_pairsFrom _ _).bind fun _ => owns_ok _

theorem owns_sslOptions (v : Value) : Owns (sslOptions v) := by
  unfold sslOptions
  split
  · exact owns_ok _
  · exact owns_error rfl

theorem owns_driverOptions (s : Settings) : Owns s.driverOptions := by
  have hlast : ∀ entries : Entries, Owns (α := Entries) (do
      if s.timeout.truth && !entries.has (.text "connect_timeout") then
        return entries.put (.text "connect_timeout") (.int (← s.timeout.toInteger))
      else return entries) := by
    intro entries
    split
    · exact (Value.owns_toInteger _).bind fun _ => owns_ok _
    · exact owns_ok _
  refine (owns_entriesOf _).bind fun options => ?_
  dsimp only
  split
  · exact ((owns_sslOptions _).map _).bind hlast
  · exact hlast options

theorem owns_label (s : Settings) : Owns s.label := by
  refine Owns.bind ?_ fun redacted => ?_
  · unfold redactedUrl
    split
    · exact owns_ok _
    · exact owns_ok _
    · split
      · exact owns_error rfl
      · exact owns_ok _
  · split <;> exact owns_ok _

end Settings
end Querywright
