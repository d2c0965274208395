import ItemClient.Json.Basic
import ItemClient.Json.Members

/-!
# Events

What a program logs about itself: a level, a message that is always the same for one kind of
event, and fields with the particulars.
-/

namespace ItemClient

/-- How much an event matters. -/
inductive Level where
  | trace
  | debug
  | info
  | error
  deriving DecidableEq

def Level.name : Level → String
  | trace => "TRACE"
  | debug => "DEBUG"
  | info => "INFO"
  | error => "ERROR"

/-- Something that is logged. -/
structure Event where
  level : Level
  message : String
  fields : List (String × Json) := []

namespace Event

def count (n : Nat) : Json := .ofInt n

def accessorCreated (collection : String) : Event :=
  ⟨.info, "collection accessor created", [("collection", .string collection)]⟩

def remoteUnavailable (baseUrl error : String) : Event :=
  ⟨.error, "remote unavailable", [("base_url", .string baseUrl), ("error", .string error)]⟩

def clientConnected (baseUrl : String) (collections : Nat) : Event :=
  ⟨.info, "client connected", [("base_url", .string baseUrl), ("collections", count collections)]⟩

/-- A dry run found a number of entities with changes. -/
def pendingComputed (dirty : Nat) : Event :=
  ⟨.trace, "pending changes computed", [("dirty", count dirty)]⟩

def toJson (e : Event) : Json :=
  .object (Members.ofList
    (("level", .string e.level.name) :: ("message", .string e.message) :: e.fields))

end Event

end ItemClient
