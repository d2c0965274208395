import ItemClient.Http.Base64
import ItemClient.Http.Header
import ItemClient.Http.Url
import ItemClient.Link.Request

/-!
# Outgoing requests

A request as it leaves the program: with its whole URL and all its headers. A request that
carries an authorization of its own is sent with that one, any other with the token of the link.
Nothing is sent when a header is not valid.
-/

namespace ItemClient.Http

/-- A request that is ready to be sent. -/
structure Outgoing where
  method : Method
  url : Url
  headers : List Header
  body : Option String := none
  timeout : Option Nat := none

/-- Where requests go and whom they come from. -/
structure Endpoint where
  /-- The URL that all paths are below. -/
  baseUrl : Url
  token : Option String := none
  /-- How the program names itself. -/
  userAgent : String

namespace Outgoing

/-- The user info that a URL carries, decoded. There is none when it spells no text. -/
def credentials? (u : Url) : Option (String × Option String) := do
  let name ← Text.decodeText? (percentDecode u.username)
  let password := u.password.bind fun p => Text.decodeText? (percentDecode p)
  if name = "" ∧ password.isNone then none else some (name, password)

/-- A URL without its user info. -/
def withoutCredentials (u : Url) : Url := { u with username := [], password := none }

/-- The header that user info is sent as. -/
def basicHeader (credentials : String × Option String) : String × String :=
  let text := credentials.1 ++ ":" ++ credentials.2.getD ""
  ("authorization", "Basic " ++ String.ofList (Base64.encode (Text.encode text)))

/-- The URL of a request without user info, and the header that the user info becomes. -/
def address (u : Url) : Url × List (String × String) :=
  match credentials? u with
  | none => (u, [])
  | some credentials => (withoutCredentials u, [basicHeader credentials])

/-- Whether a caller authorizes a request itself. -/
def isAuthorized (r : Request) : Bool := r.headers.any fun h => Header.isAuthorization h.1

/-- The header that the token of an endpoint is sent as, unless the request has its own. -/
def bearerHeader (e : Endpoint) (r : Request) : List (String × String) :=
  if isAuthorized r then []
  else (e.token.map fun token => ("authorization", "Bearer " ++ token)).toList

/-- Check headers in order, up to the first that is not valid. -/
def checkHeaders (headers : List (String × String)) : Except String (List Header) :=
  headers.mapM fun (name, value) => Header.make name value

/-- The request that an endpoint sends, or why there is none. -/
def prepare (e : Endpoint) (r : Request) : Except String Outgoing := do
  let (url, basic) := address (e.baseUrl.push r.segments)
  let headers ← checkHeaders
    (basic ++ [("content-type", "application/json")] ++ bearerHeader e r ++ r.headers)
  return { method := r.method, url := url.addQuery r.query, headers,
           body := r.body.map Json.text, timeout := r.timeout }

/-- The health check that an endpoint sends. It is never authorized with the token. -/
def ping (e : Endpoint) : Except String Outgoing := do
  let (url, basic) := address (e.baseUrl.push ["server", "ping"])
  return { method := .get, url, headers := ← checkHeaders basic }

/-- The headers that are added to every request that has none of their names. -/
def defaults (e : Endpoint) : List Header := [⟨"accept", "*/*"⟩, ⟨"user-agent", e.userAgent⟩]

def withDefaults (e : Endpoint) (o : Outgoing) : Outgoing :=
  { o with
    headers := o.headers ++ (defaults e).filter fun d => !o.headers.any (·.name = d.name) }

end Outgoing

end ItemClient.Http
