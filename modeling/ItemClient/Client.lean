import ItemClient.Settings
import ItemClient.UnitOfWork.Notice
import ItemClient.UnitOfWork.Registration

/-!
# Clients

A client is made from settings and record types, once the remote store has answered a health
check. It owns a unit of work, and can open further contexts, each with a unit of work of its own
over the same accessors.
-/

namespace ItemClient

/-- A client that is connected. -/
structure Client where
  settings : Settings
  accessors : AccessorTable

namespace Client

/-- Connect with accessors for record types, registered in order. `ping` is the outcome of the
health check, which is made only after the settings were found in order. The events are logged
also when connecting fails. -/
def connect (settings : Settings) (catalog : Catalog) (ping : Result Unit) :
    Result Client × List Event :=
  match settings.validate, ping with
  | .error e, _ => (.error e, [])
  | .ok _, .error e => (.error e, [.remoteUnavailable settings.baseUrl e.message])
  | .ok _, .ok _ =>
      let accessors := AccessorTable.ofCatalog catalog
      (.ok { settings, accessors },
        catalog.map (fun s => .accessorCreated s.collection) ++
          [.clientConnected settings.baseUrl accessors.size])

/-- A unit of work over the accessors of a client. -/
def newContext (c : Client) : UnitOfWork := { accessors := c.accessors }

def shownContext (u : UnitOfWork) : String :=
  Text.fields "AccessContext" [("tracker", u.shown)] false

/-- How a client is shown to a developer, `u` being its own unit of work. -/
def shown (c : Client) (u : UnitOfWork) : String :=
  Text.fields "Client" [("config", c.settings.shown), ("tracker", u.shown)] true

end Client

end ItemClient
