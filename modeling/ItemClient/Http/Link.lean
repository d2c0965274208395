import ItemClient.Http.Outgoing
import ItemClient.Link.Gateway
import ItemClient.Settings

/-!
# Links over HTTP

A link sends requests to an endpoint over a network. The network is a function from outgoing
requests to responses, or to the reason why no connection could be opened. A failure to build a
request and a failure to connect are both failures of the link.
-/

namespace ItemClient.Http

/-- What carries requests: it answers them, or says why it could not connect. -/
abbrev Network := Outgoing → Except String Response

def Network.unreachable : Network := fun _ => .error "Network is unreachable (os error 101)"

namespace Endpoint

/-- The endpoint that settings describe. The base URL must have a path that can be extended, and
the name of the program must be a valid header. -/
def ofSettings (s : Settings) : Result Endpoint :=
  match Url.read s.baseUrl with
  | .error fault =>
      .error (.invalidConfig ("invalid base_url '" ++ s.baseUrl ++ "': " ++ fault.reason))
  | .ok baseUrl =>
      if !baseUrl.hasPath then
        .error (.invalidConfig ("base_url '" ++ s.baseUrl ++ "' cannot carry a path"))
      else if !Header.isValue s.userAgent then
        .error (.transport (.malformed Header.badValue))
      else .ok { baseUrl, token := s.token, userAgent := s.userAgent }

def deliver (e : Endpoint) (network : Network) (o : Outgoing) : Except LinkFailure Response :=
  match network (o.withDefaults e) with
  | .ok response => .ok response
  | .error reason => .error (.unreachable o.url.text reason)

def send (e : Endpoint) (network : Network) (r : Request) : Result Response :=
  match Outgoing.prepare e r with
  | .error reason => .error (.transport (.malformed reason))
  | .ok o => (e.deliver network o).mapError .transport

/-- The health check: it succeeds with status 200 only. -/
def ping (e : Endpoint) (network : Network) : Result Unit :=
  match Outgoing.ping e with
  | .error reason => .error (.healthCheck (.malformed reason))
  | .ok o =>
      match e.deliver network o with
      | .error failure => .error (.healthCheck failure)
      | .ok response =>
          if response.status = 200 then .ok ()
          else
            .error (.healthCheck
              (.reported ("unexpected status code: " ++ toString response.status)))

/-- The gateway over an endpoint, which has no custom accessors. -/
def gateway (e : Endpoint) (network : Network) : Gateway Unit :=
  { send := fun r world => (e.send network r, world)
    handOver := fun collection _ _ world => (.error (AccessorTable.missing collection), world) }

end Endpoint

end ItemClient.Http
