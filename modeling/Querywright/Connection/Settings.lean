/-
  Connection settings: the address, what the connection should do, and the options that the
  driver gets. They are given directly, read from a data source name, or from an environment
  variable that holds one.

  In a data source name the options `autocommit` and `timeout` are settings, the four `ssl` names
  are SSL settings, and all others are driver options. What is given beside the name wins.
-/
import Querywright.DataSource.Basic
import Querywright.Descriptor.Schema
import Querywright.Value.Number

namespace Querywright

/-- What is known of the parts of an address: nothing, its parts, or a value that has been given
in their place. -/
inductive AddressParts where
  | unknown
  | read (d : DataSource)
  | given (v : Value)

/-- Everything that an adapter needs to open a connection. -/
structure Settings where
  url : Value
  autocommit : Value := .bool false
  timeout : Value := .null
  options : Value := .null
  ssl : Value := .null
  parts : AddressParts := .unknown
  origin : Value := .null

/-- The parts of an address from a value; null tells nothing. -/
def AddressParts.ofGiven : Value → AddressParts
  | .null => .unknown
  | v => .given v

namespace Settings

/-- The truth values that a text option is read as. -/
def readFlag (name raw : String) : Except Fault Value :=
  let word := String.ofList (Text.lower (Text.stripChars raw.toList))
  if ["1", "true", "yes", "on"].contains word then .ok (.bool true)
  else if ["0", "false", "no", "off"].contains word then .ok (.bool false)
  else .error (.setting (.notBoolean name (Text.quote raw)) none)

/-- A number in a text option. -/
def readNumber (name raw : String) : Except Fault Value :=
  match readBinary64 raw.toList with
  | some x => .ok (.float x)
  | none =>
    .error (.setting (.notNumber name "float" (Text.quote raw)) (some (.notNumber (Text.quote raw))))

/-- A whole number in a text option. -/
def readCount (name raw : String) : Except Fault Value :=
  match (Value.text raw).toInteger with
  | .ok n => .ok (.int n)
  | .error e => .error (.setting (.notNumber name "int" (Text.quote raw)) (some e))

/-- The SSL setting that an option name stands for. -/
def sslField? (name : String) : Option String :=
  [("sslmode", "mode"), ("sslrootcert", "rootcert"), ("sslcert", "cert"), ("sslkey", "key")].lookup
    name

/-- What a data source name's options say: the settings, the SSL settings and the options of the
driver, each in the order of their first mention. -/
structure Split where
  autocommit : Value := .bool false
  timeout : Value := .null
  ssl : List (String × Value) := []
  driver : Entries := []

/-- Sort one option. -/
def splitOption (s : Split) (name raw : String) : Except Fault Split :=
  if name = "autocommit" then do return { s with autocommit := ← readFlag name raw }
  else if name = "timeout" then do return { s with timeout := ← readNumber name raw }
  else match sslField? name with
    | some field => .ok { s with ssl := s.ssl ++ [(field, .text raw)] }
    | none =>
      if name = "connect_timeout" then do
        return { s with driver := s.driver.put (.text name) (← readCount name raw) }
      else .ok { s with driver := s.driver.put (.text name) (.text raw) }

/-- Sort the options. -/
def splitOptions (pairs : List (String × String)) : Except Fault Split :=
  pairs.foldlM (fun s p => splitOption s p.1 p.2) {}

/-- A pair from a value with two items, the first of which can be a key. -/
def pairOf (position : Nat) (v : Value) : Except Fault (Value × Value) := do
  match ← v.items with
  | [k, x] => if k.isKey then return (k, x) else throw .unsupported
  | items => throw (.pairLength position items.length)

/-- Pairs from the items of a value. -/
def pairsFrom : Nat → List Value → Except Fault (List (Value × Value))
  | _, [] => .ok []
  | position, v :: rest => do
    let p ← pairOf position v
    return p :: (← pairsFrom (position + 1) rest)

/-- The entries of a map or of a list of pairs; nothing given has none. -/
def entriesOf (v : Value) : Except Fault Entries :=
  if !v.truth then .ok []
  else match v with
    | .map entries => .ok entries
    | v => do return Entries.ofList (← pairsFrom 0 (← v.items))

/-- Set one field that is given by name. -/
def set (s : Settings) (name : String) (v : Value) : Except Fault Settings :=
  match name with
  | "autocommit" => .ok { s with autocommit := v }
  | "timeout" => .ok { s with timeout := v }
  | "options" => .ok { s with options := v }
  | "ssl" => .ok { s with ssl := v }
  | "dsn" => .ok { s with parts := AddressParts.ofGiven v }
  | "source" => .ok { s with origin := v }
  | _ => .error .unsupported

/-- Set the fields that are given by name. -/
def setAll (s : Settings) (given : List (String × Value)) : Except Fault Settings :=
  given.foldlM (fun s p => s.set p.1 p.2) s

/-- Settings that are given directly. -/
def ofUrl (url : Value) (given : List (String × Value)) : Except Fault Settings :=
  setAll { url } given

/-- A map as a value; an empty one is null. -/
def orNull (entries : Entries) : Value :=
  if entries.isEmpty then .null else .map entries

/-- The SSL settings of a data source name, where it has any. -/
def sslOf (pairs : List (String × Value)) : Value :=
  if pairs.isEmpty then .null else .record .ssl (RecordKind.ssl.fill pairs)

/-- The fault of a data source name: what it cannot be read for is the reason. -/
def addressFault (e : Fault) : Fault :=
  .setting (.address (e.message?.getD "")) (some e)

/-- Whether a name is among those given. -/
def names (given : List (String × Value)) (reserved : List String) : Bool :=
  given.any fun p => reserved.contains p.1

/-- Settings from a data source name and what is given beside it, which is not the name itself. -/
def ofDataSource (dsn : String) (given : List (String × Value)) : Except Fault Settings := do
  if names given ["cls", "dsn"] then throw .unsupported
  let parsed ← match DataSource.parse dsn with
    | .ok d => pure d
    | .error e => throw (addressFault e)
  let split ← splitOptions parsed.query
  let options ← entriesOf ((RecordKind.assigned? "options" given).getD .null)
  let base : Settings := {
    url := .text dsn
    autocommit := split.autocommit
    timeout := split.timeout
    ssl := sslOf split.ssl
    parts := .read parsed }
  let settings ← base.setAll given
  return { settings with options := orNull (split.driver.merge options) }

/-- Settings from a data source name that may be any value. -/
def ofAddress (dsn : Value) (given : List (String × Value)) : Except Fault Settings :=
  match dsn with
  | .text s => ofDataSource s given
  | v =>
    if names given ["cls", "dsn"] then .error .unsupported
    else match DataSource.addressText v with
      | .ok s => ofDataSource s given
      | .error (.address cause) => .error (addressFault (.address cause))
      | .error e => .error e

/-- Settings from an environment variable that holds a data source name. The variable names their
source. -/
def ofVariable (name : String) (held : Option String) (given : List (String × Value)) :
    Except Fault Settings :=
  if names given ["cls", "env_var"] then .error .unsupported
  else match held.filter (· != "") with
    | none => .error (.setting (.variableUnset name) none)
    | some dsn =>
      if names given ["source"] then .error .unsupported
      else ofDataSource dsn (("source", .text name) :: given)

/-- The address without its secrets, when its parts have been read; a value in their place has no
such form. -/
def redactedUrl (s : Settings) : Except Fault Value :=
  match s.parts with
  | .unknown => .ok s.url
  | .read d => .ok (.text d.redacted)
  | .given v => if v.truth then .error .noMember else .ok s.url

/-- The name of the settings in messages. -/
def label (s : Settings) : Except Fault Value := do
  let redacted ← s.redactedUrl
  if s.origin.truth then return .text (s.origin.display ++ " (" ++ redacted.display ++ ")")
  else return redacted

/-- The driver options of SSL settings: those that are given. -/
def sslOptions (ssl : Value) : Except Fault Entries :=
  match ssl with
  | .record .ssl fields =>
    .ok ((["sslmode", "sslrootcert", "sslcert", "sslkey"].zip fields).filterMap fun (name, v) =>
      if v.truth then some (.text name, v) else none)
  | _ => .error .noMember

/-- Add entries whose keys are not there yet. -/
def addMissing (entries more : Entries) : Entries :=
  more.foldl (fun all e => if all.has e.1 then all else all.put e.1 e.2) entries

/-- The keyword options that the driver gets: the options first, then the SSL settings, then the
timeout in whole seconds, none of them replacing one before. -/
def driverOptions (s : Settings) : Except Fault Entries := do
  let options ← entriesOf s.options
  let withSsl ← if s.ssl.truth then (sslOptions s.ssl).map (addMissing options) else pure options
  if s.timeout.truth && !withSsl.has (.text "connect_timeout") then
    return withSsl.put (.text "connect_timeout") (.int (← s.timeout.toInteger))
  else return withSsl

/-- The file that an address of SQLite names. -/
def pathOf (url : String) : String :=
  if url = "sqlite://" ∨ url = "sqlite:///:memory:" ∨ url = ":memory:" then ":memory:"
  else if Text.startsWith "sqlite:///" url then String.ofList (url.toList.drop 10)
  else url

/-- The file that an address of any kind names; only texts name one. -/
def databasePath (url : Value) : Except Fault Value :=
  match url with
  | .text s => .ok (.text (pathOf s))
  | .keyword k => .ok (.keyword k)
  | .bytes _ => .error .unsupported
  | .set _ => .error .noMember
  | v => if v.isKey then .error .noMember else .error .unsupported

end Settings
end Querywright
