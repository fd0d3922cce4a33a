/-
  Masking of secrets before they reach a log or a hook.

  * A key is sensitive when, in lower case and with everything but ASCII letters and digits
    removed, it contains one of `keyWords`.
  * A text or byte string is sensitive when, ignoring case, it contains one of `valueWords`.
-/
import Querywright.Fault
import Querywright.Text.Basic
import Querywright.Text.LetterCase
import Querywright.Text.Utf8
import Querywright.Value.Display
import Querywright.Value.Key

namespace Querywright.Secret

/-- What stands for a secret. -/
def mask : String := "***"

/-- Words that make a key sensitive. -/
def keyWords : List String :=
  ["passwd", "password", "pwd", "secret", "token", "apikey", "accesskey", "privatekey", "sslkey"]

/-- Words that make a value sensitive. -/
def valueWords : List String :=
  ["passwd", "password", "secret", "token", "apikey", "api_key", "api-key", "bearer",
    "authorization"]

/-- Whether one of the words occurs. -/
def hasAnyWord (words : List String) (s : List Char) : Bool :=
  words.any fun w => Text.hasWord w.toList s

/-- A lower case ASCII letter or a digit. -/
def isPlain (c : Char) : Bool := c.isLower || c.isDigit

/-- A key without case and separators. -/
def compact (key : List Char) : List Char :=
  (Text.lower key).filter isPlain

/-- Whether the key names a secret. -/
def isSensitiveKey (key : String) : Bool :=
  hasAnyWord keyWords (compact key.toList)

/-- Whether a value that should be a key names a secret. Byte strings have a case but are no text. -/
def isSensitiveName (key : Value) : Except Fault Bool :=
  match key with
  | .bytes _ => .error .unsupported
  | .byteArray _ => .error .unsupported
  | v =>
    match v.asText? with
    | some s => .ok (isSensitiveKey s)
    | none => .error .noMember

/-- Whether the text looks like a secret. -/
def isSensitiveText (s : List Char) : Bool :=
  hasAnyWord valueWords (s.map Text.foldLetter)

/-- The text that is looked at in a value. -/
def inspected? : Value → Option (List Char)
  | .text s => some s.toList
  | .keyword k => some k.word.toList
  | .bytes bs => some (Text.Utf8.decode [] bs)
  | .byteArray bs => some (Text.Utf8.decode [] bs)
  | _ => none

/-- Whether the value looks like a secret. -/
def isSensitive (v : Value) : Bool :=
  match inspected? v with
  | some s => isSensitiveText s
  | none => false

/-- The value, masked when it looks like a secret. -/
def redact (v : Value) : Value :=
  if isSensitive v then .text mask else v

/-- The values, each masked when it looks like a secret. -/
def redactAll (values : List Value) : List Value := values.map redact

/-- The entries, the values of sensitive keys masked. -/
def redactEntries (entries : Entries) : Entries :=
  entries.map fun (k, v) => (k, if isSensitiveKey k.display then .text mask else v)

end Querywright.Secret
