/-
  Everything that can go wrong, by cause, with the wording in one place.

  * `ShapeFault`: a descriptor of the wrong shape.
  * `AddressFault`: a connection address that cannot be read.
  * `SettingFault`: connection settings that cannot be used.
  * `Fault`: all of them, and the faults of counts, numbers, transactions and drivers.

  `Fault.message?` is the wording, `Fault.label` the word that log lines use for the kind of
  fault, and `Fault.context` the parts of a statement fault.
-/
import Querywright.Value.Display

namespace Querywright

/-- A descriptor of the wrong shape. -/
inductive ShapeFault where
  /-- A mapping names a field that the kind of descriptor does not have. -/
  | unknownField (field kind : String) (known : List String)
  /-- Something else stands where a descriptor is wanted. -/
  | notDescriptor (kind got : String)
  | conditionsMissing
  | unknownConditionFields (names : List String)
  | notConditions (got : String)
  | conditionNotText (got : String)
  | joinTable
  | dataNotMap (label got : String)
  | rowsNotMaps (got : String)
  | rowNotMap (position : Nat) (got : String)
  | rowColumns (position : Nat) (columns : List String)
  | numberedSubquery (clause : String)
  | updateConflict
  | conflictTarget
  deriving DecidableEq, Repr

/-- Why an address cannot be read. -/
inductive AddressFault where
  | schemeMissing (shown : String)
  | misplacedBrackets
  | futureAddress
  | bracketedIPv4
  | notAnAddress (shown : String)
  | confusable (authority : String)
  | portNotNumber (shown : String)
  | portOutOfRange
  deriving DecidableEq, Repr

/-- Why a transaction step is refused. -/
inductive TransactionFault where
  | alreadyActive
  | nothingToCommit
  | nothingToRollBack
  deriving DecidableEq, Repr

/-- The two kinds of driver failure: one that the driver documents, and any other. -/
inductive DriverFault where
  | operational (message : String)
  | general (message : String)
  deriving DecidableEq, Repr

/-- Why connection settings cannot be used. -/
inductive SettingFault where
  | notBoolean (option shown : String)
  | notNumber (option kind shown : String)
  | variableUnset (name : String)
  | driverMissing
  | address (message : String)
  deriving DecidableEq, Repr

/-- The parts of a statement fault; a part that is not given is null. -/
structure FaultContext where
  clause : Value := .null
  query : Value := .null
  expected : Value := .null
  received : Value := .null
  hint : Value := .null

/-- The kinds of statement fault. -/
inductive FaultKind where
  | plain
  | mismatch
  | missing
  | shape
  deriving DecidableEq, Repr

/-- A statement fault with its own wording. One of missing data names an operation and a field. -/
structure Rejection where
  kind : FaultKind
  message : String
  context : FaultContext := {}
  subject : Option (Value × Value) := none

/-- What went wrong. -/
inductive Fault where
  /-- Placeholders and bound values differ in number. -/
  | parameterMismatch (clause : String) (query : Option String) (expected received : Int)
  /-- A field that the operation needs is absent or empty. -/
  | missingData (operation field : String)
  | shape (cause : ShapeFault)
  /-- A statement fault that a caller has made. -/
  | rejected (r : Rejection)
  | notInteger (shown : String)
  | notNumber (shown : String)
  /-- More digits than an integer is read from; without a count, than one is written with. -/
  | integerTooLong (digits : Option Nat)
  | integerFromInfinity
  | integerFromNaN
  | notFetchMode (shown : String)
  | address (cause : AddressFault)
  | setting (cause : SettingFault) (reason : Option Fault)
  /-- A connection that could not be opened, with its label. -/
  | connectionRefused (label : String) (reason : Fault)
  /-- The adapter of that name holds no connection. -/
  | notConnected (adapter : String)
  /-- The database of that name rejected a statement. -/
  | executionRefused (database : String) (reason : DriverFault)
  | markerMismatch (markers values : Nat)
  | driver (cause : DriverFault)
  | transaction (cause : TransactionFault)
  /-- A query without anything to run it. -/
  | unbound
  | notStatement (got : String)
  /-- A failure raised by the code that is timed. -/
  | interrupted
  /-- An item of a list of pairs that is no pair. -/
  | pairLength (position length : Nat)
  /-- An operation that the value does not support. -/
  | unsupported
  /-- A member that the value does not have. -/
  | noMember
  | noKey
  | noIndex

instance : Inhabited Fault := ⟨.unsupported⟩

namespace ShapeFault

/-- The wording. -/
def message : ShapeFault → String
  | .unknownField field kind _ => "Unknown field '" ++ field ++ "' for " ++ kind
  | .notDescriptor kind got => "Expected " ++ kind ++ " or mapping, got " ++ got
  | .conditionsMissing => "Structured where requires a 'conditions' entry"
  | .unknownConditionFields names => "Unknown where field(s): " ++ ", ".intercalate names
  | .notConditions got => "Unsupported where value of type " ++ got
  | .conditionNotText got => "Where conditions must be strings, got " ++ got
  | .joinTable => "Join table must be a table name or a select descriptor"
  | .dataNotMap label got => label ++ " must be a mapping of column to value, got " ++ got
  | .rowsNotMaps got => "Insert data must be a mapping or a list of mappings, got " ++ got
  | .rowNotMap position got =>
    "Insert row " ++ toString position ++ " must be a mapping, got " ++ got
  | .rowColumns position _ =>
    "Insert row " ++ toString position ++ " columns differ from the first row"
  | .numberedSubquery clause =>
    "Subquery parameters in " ++ clause ++ " require bare '?' placeholders"
  | .updateConflict => "Update only accepts a conflict keyword"
  | .conflictTarget => "Upsert requires at least one conflict column"

/-- The advice. -/
def hint : ShapeFault → Option String
  | .unknownField _ _ known => some ("Valid fields: " ++ ", ".intercalate known)
  | .conditionsMissing => some "Use \x7b'conditions': 'id = ?1', 'params': [1]\x7d"
  | .notConditions _ =>
    some "Pass a string, a list of strings or \x7b'conditions': ..., 'params': ...\x7d"
  | .joinTable => some "Use \x7b'table': 'employees', 'on': 'a.id = employees.a_id'\x7d"
  | .rowColumns _ columns =>
    some ("Every row must provide exactly: " ++ ", ".intercalate columns)
  | .numberedSubquery _ =>
    some "Write 'id IN ?' instead of 'id IN ?1' when passing a subquery"
  | .updateConflict => some "Use one of ROLLBACK, ABORT, FAIL, IGNORE, REPLACE"
  | .conflictTarget => some "Set 'column' to the unique column(s) that trigger the conflict"
  | _ => none

end ShapeFault

/-- The wording. -/
def AddressFault.message : AddressFault → String
  | .schemeMissing shown => "DSN is missing a scheme: " ++ shown
  | .misplacedBrackets => "Invalid IPv6 URL"
  | .futureAddress => "IPvFuture address is invalid"
  | .bracketedIPv4 => "An IPv4 address cannot be in brackets"
  | .notAnAddress shown => shown ++ " does not appear to be an IPv4 or IPv6 address"
  | .confusable authority =>
    "netloc '" ++ authority ++ "' contains invalid characters under NFKC normalization"
  | .portNotNumber shown => "Port could not be cast to integer value as " ++ shown
  | .portOutOfRange => "Port out of range 0-65535"

/-- The wording. -/
def TransactionFault.message : TransactionFault → String
  | .alreadyActive => "Transaction already started; nested transactions are not supported."
  | .nothingToCommit => "No active transaction to commit."
  | .nothingToRollBack => "No active transaction to roll back."

/-- The wording. -/
def DriverFault.message : DriverFault → String
  | .operational message => message
  | .general message => message

/-- The wording. -/
def SettingFault.message : SettingFault → String
  | .notBoolean option shown => "Option '" ++ option ++ "' expects a boolean, got " ++ shown
  | .notNumber option kind shown => "Option '" ++ option ++ "' expects " ++ kind ++ ", got " ++ shown
  | .variableUnset name => "Environment variable " ++ name ++ " is not set"
  | .driverMissing => "PostgresAdapter needs psycopg; install blazeqb[postgres]."
  | .address message => message

namespace FaultContext

/-- A part of the wording, left out when it counts as not given. -/
def textPart (label : String) (v : Value) : List String :=
  if v.truth then [label ++ ": " ++ v.display] else []

/-- A part of the wording that counts parameters. -/
def countPart (label : String) : Value → List String
  | .null => []
  | v => [label ++ ": " ++ v.display ++ " parameter(s)"]

/-- The message followed by the parts that are given. -/
def render (message : String) (c : FaultContext) : String :=
  "; ".intercalate <|
    [message] ++ textPart "clause" c.clause ++ textPart "query" c.query
      ++ countPart "expected" c.expected ++ countPart "received" c.received
      ++ textPart "hint" c.hint

end FaultContext

namespace Fault

/-- The advice on a mismatch, by whether too much was received. -/
def mismatchHint (excess : Bool) : String :=
  if excess then "Remove extra parameters or add more placeholders (?) to the condition"
  else "Add missing parameters or remove extra placeholders (?) from the condition"

/-- The wording of a mismatch before its parts. -/
def mismatchMessage : String := "Parameter count mismatch"

/-- The advice on a missing field. -/
def missingHint (field : String) : String := "Provide a valid " ++ field

/-- The wording of a missing field before its parts. -/
def missingMessage (operation field : String) : String :=
  field ++ " is required for " ++ operation ++ " operation"

/-- The parts of a statement fault. -/
def context : Fault → Option FaultContext
  | .parameterMismatch clause query expected received =>
    some ⟨.text clause, Value.ofText? query, .int expected, .int received,
      .text (mismatchHint (expected < received))⟩
  | .missingData _ field => some { hint := .text (missingHint field) }
  | .shape cause => some { hint := Value.ofText? cause.hint }
  | .rejected r => some r.context
  | _ => none

/-- The wording. Faults of misuse have none. -/
def message? : Fault → Option String
  | f@(.parameterMismatch ..) => f.context.map (·.render mismatchMessage)
  | f@(.missingData operation field) => f.context.map (·.render (missingMessage operation field))
  | f@(.shape cause) => f.context.map (·.render cause.message)
  | .rejected r => some (r.context.render r.message)
  | .notInteger shown => some ("invalid literal for int() with base 10: " ++ shown)
  | .notNumber shown => some ("could not convert string to float: " ++ shown)
  | .integerTooLong none =>
    some ("Exceeds the limit (4300 digits) for integer string conversion; "
      ++ "use sys.set_int_max_str_digits() to increase the limit")
  | .integerTooLong (some digits) =>
    some ("Exceeds the limit (4300 digits) for integer string conversion: value has "
      ++ toString digits ++ " digits; use sys.set_int_max_str_digits() to increase the limit")
  | .integerFromInfinity => some "cannot convert float infinity to integer"
  | .integerFromNaN => some "cannot convert float NaN to integer"
  | .notFetchMode shown => some (shown ++ " is not a valid FetchType")
  | .address cause => some cause.message
  | .setting cause _ => some cause.message
  | .connectionRefused label _ => some ("Could not connect to " ++ label)
  | .notConnected adapter => some (adapter ++ " is not connected.")
  | .executionRefused database reason =>
    some (database ++ " rejected statement: " ++ reason.message)
  | .markerMismatch markers values =>
    some ("Statement has " ++ toString markers ++ " parameter marker(s) but "
      ++ toString values ++ " value(s) were bound.")
  | .driver cause => some cause.message
  | .transaction cause => some cause.message
  | .unbound => some "Query is not bound to an executor."
  | .notStatement got => some ("Expected a Statement or Query, got " ++ got)
  | .interrupted => none
  | .pairLength position length =>
    some ("dictionary update sequence element #" ++ toString position ++ " has length "
      ++ toString length ++ "; 2 is required")
  | .unsupported => none
  | .noMember => none
  | .noKey => none
  | .noIndex => none

/-- The word for the kind of driver failure. -/
def driverLabel : DriverFault → String
  | .operational _ => "OperationalError"
  | .general _ => "RuntimeError"

/-- The word for the kind of statement fault. -/
def kindLabel : FaultKind → String
  | .plain => "QueryBuilderError"
  | .mismatch => "ParameterMismatchError"
  | .missing => "MissingDataError"
  | .shape => "InvalidConfigurationError"

/-- The word for the kind of fault. -/
def label : Fault → String
  | .parameterMismatch .. => kindLabel .mismatch
  | .missingData .. => kindLabel .missing
  | .shape _ => kindLabel .shape
  | .rejected r => kindLabel r.kind
  | .notInteger _ => "ValueError"
  | .notNumber _ => "ValueError"
  | .integerTooLong _ => "ValueError"
  | .integerFromInfinity => "OverflowError"
  | .integerFromNaN => "ValueError"
  | .notFetchMode _ => "ValueError"
  | .address _ => "ValueError"
  | .setting .. => "AdapterConfigurationError"
  | .connectionRefused .. => "AdapterConnectionError"
  | .notConnected _ => "AdapterConnectionError"
  | .executionRefused .. => "AdapterExecutionError"
  | .markerMismatch .. => "AdapterExecutionError"
  | .driver cause => driverLabel cause
  | .transaction _ => "TransactionError"
  | .unbound => "RuntimeError"
  | .notStatement _ => "TypeError"
  | .interrupted => "RuntimeError"
  | .pairLength .. => "ValueError"
  | .unsupported => "TypeError"
  | .noMember => "AttributeError"
  | .noKey => "KeyError"
  | .noIndex => "IndexError"

/-- Whether the fault is one of an adapter. -/
def ofAdapter : Fault → Bool
  | .setting .. | .connectionRefused .. | .notConnected _ | .executionRefused ..
  | .markerMismatch .. => true
  | _ => false

/-- The fault that an adapter's fault was raised from. -/
def reason? : Fault → Option Fault
  | .setting _ reason => reason
  | .connectionRefused _ reason => some reason
  | .executionRefused _ reason => some (.driver reason)
  | _ => none

end Fault
end Querywright
