import ItemClient.Error
import ItemClient.Event
import ItemClient.Record.ChangeSet

/-!
# Notices

What a unit of work tells its observer, in the order in which it happens. An observer either
ignores the notices, logs them as events, or keeps them.
-/

namespace ItemClient

/-- What a commit did. -/
structure CommitReport where
  /-- How many entities were looked at. -/
  inspected : Nat
  /-- For how many of them changes were sent. -/
  patched : Nat
  deriving DecidableEq

/-- Whether a commit sent nothing. -/
def CommitReport.isNoop (r : CommitReport) : Bool := r.patched = 0

/-- Something that happened in a unit of work. -/
inductive Notice where
  /-- An entity is tracked from now on. -/
  | tracked (collection identity : String)
  /-- The changes of an entity were acknowledged. -/
  | patched (collection identity : String) (changes : ChangeSet)
  /-- Sending the changes of an entity failed. -/
  | failed (collection identity : String) (error : Error)
  | finished (report : CommitReport)
  /-- A number of entities is not tracked any more. -/
  | reset (discarded : Nat)

namespace Notice

/-- The fields that name an entity. -/
def place (collection identity : String) : List (String × Json) :=
  [("collection", .string collection), ("identity", .string identity)]

def event : Notice → Event
  | tracked collection identity => ⟨.trace, "entity tracked", place collection identity⟩
  | patched collection identity changes =>
      ⟨.debug, "entity patched",
        place collection identity ++ [("fields", Event.count changes.size)]⟩
  | failed collection identity error =>
      ⟨.error, "commit aborted",
        place collection identity ++ [("error", .string error.message)]⟩
  | finished report =>
      ⟨.info, "commit finished",
        [("inspected", Event.count report.inspected), ("patched", Event.count report.patched)]⟩
  | reset discarded =>
      ⟨.debug, "tracking registry reset", [("discarded", Event.count discarded)]⟩

end Notice

/-- What is done with notices. -/
inductive Observer where
  | silent
  | logging
  | recording
  deriving DecidableEq

/-- What was logged and what was kept, oldest first. -/
structure Journal where
  events : List Event := []
  notices : List Notice := []

namespace Journal

def log (j : Journal) (events : List Event) : Journal := { j with events := j.events ++ events }

def observe (j : Journal) (observer : Observer) (notices : List Notice) : Journal :=
  match observer with
  | .silent => j
  | .logging => j.log (notices.map Notice.event)
  | .recording => { j with notices := j.notices ++ notices }

end Journal

end ItemClient
