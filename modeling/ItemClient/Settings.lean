import ItemClient.Error
import ItemClient.Text.Quoted
import ItemClient.Text.Utf8

/-!
# Settings

Where the remote store is and how it is talked to. Settings come from defaults, from the
environment and from the caller, and are checked before a client connects. The token never shows
when settings are shown.
-/

namespace ItemClient

/-- The settings of a client. Times are in milliseconds. -/
structure Settings where
  baseUrl : String := "http://localhost:8055"
  token : Option String := none
  /-- How long opening a connection may take. -/
  connectTimeout : Nat := 30000
  /-- How long a request may take, when it does not say so itself. -/
  requestTimeout : Option Nat := none
  /-- How the program names itself. -/
  userAgent : String := "rustdirectus/0.1.0"
  deriving DecidableEq

/-- The environment of a program: the bytes of each variable that is set. -/
abbrev Environment := String → Option (List UInt8)

namespace Settings

/-- The text of a variable. One whose bytes spell no text counts as not set. -/
def variableText? (env : Environment) (name : String) : Option String :=
  (env name).bind Text.decodeText?

/-- Drop the plus sign that a number may start with. -/
def dropPlus : List Char → List Char
  | '+' :: rest => rest
  | cs => cs

/-- An unsigned number of 64 bits. -/
def readUnsigned? (s : String) : Option Nat :=
  let digits := dropPlus s.toList
  let n := Text.decimalValue digits
  if digits ≠ [] ∧ digits.all Char.isDigit ∧ n < 0x10000000000000000 then some n else none

def badTimeout (text : String) : Error :=
  .invalidConfig ("DIRECTUS_TIMEOUT_SECS must be an integer, got '" ++ text ++ "'")

/-- The timeout of requests that the environment sets, in milliseconds. -/
def environmentTimeout (env : Environment) : Result (Option Nat) :=
  match variableText? env "DIRECTUS_TIMEOUT_SECS" with
  | none => .ok none
  | some text =>
      match readUnsigned? text with
      | some seconds => .ok (some (1000 * seconds))
      | none => .error (badTimeout text)

/-- The settings that the environment makes, with defaults for all else. -/
def ofEnvironment (env : Environment) : Result Settings := do
  let timeout ← environmentTimeout env
  let defaults : Settings := {}
  return { defaults with
    baseUrl := (variableText? env "DIRECTUS_URL").getD defaults.baseUrl
    token := variableText? env "DIRECTUS_TOKEN"
    requestTimeout := timeout }

def hasWebScheme (url : String) : Bool :=
  "http://".toList.isPrefixOf url.toList || "https://".toList.isPrefixOf url.toList

/-- Check settings. Of several faults the first is reported. -/
def validate (s : Settings) : Result Unit :=
  if Text.isBlankText s.baseUrl then .error (.invalidConfig "base_url cannot be empty")
  else if !hasWebScheme s.baseUrl then
    .error (.invalidConfig
      ("base_url must start with http:// or https://, got '" ++ s.baseUrl ++ "'"))
  else if s.token.any Text.isBlankText then .error (.invalidConfig "token cannot be empty")
  else if s.requestTimeout = some 0 then
    .error (.invalidConfig "request_timeout must be > 0")
  else .ok ()

/-- How settings are shown to a developer, without the token. -/
def shown (s : Settings) : String :=
  Text.fields "ClientConfig"
    [("base_url", Text.quoted s.baseUrl),
      ("token", Text.optional (s.token.map fun _ => Text.quoted "***")),
      ("connect_timeout", Text.duration s.connectTimeout),
      ("request_timeout", Text.optional (s.requestTimeout.map Text.duration)),
      ("user_agent", Text.quoted s.userAgent)]
    false

end Settings

end ItemClient
