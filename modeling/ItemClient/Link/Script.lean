import ItemClient.Entity.Edit
import ItemClient.Link.Gateway

/-!
# Scripted links

A far end in memory, for trying out a program without a network. It answers each request as it
was told to for the method and path, and otherwise echoes changes and knows no rows. It keeps
the requests it was sent. An edit can be planned for the time at which a PATCH is under way: it
is made when the request has arrived and before it is answered.
-/

namespace ItemClient

/-- An answer that was told in advance. -/
inductive Answer where
  | response (r : Response)
  | broken (text : String)

/-- An edit of a live entity that is planned for the next PATCH to a path. -/
structure PlannedEdit where
  path : String
  /-- The entity that is edited, if it can be read then. -/
  entity : EntityId
  edit : Edit

/-- The far end of a scripted link. -/
structure Script where
  /-- What to answer, by method and path. -/
  answers : List ((Method × String) × Answer) := []
  /-- Edits that are planned, in order. -/
  edits : List PlannedEdit := []
  /-- The requests that arrived, oldest first. -/
  requests : List Request := []
  pingStatus : Nat := 200
  /-- What custom accessors were handed, oldest first: collection, key and changes. -/
  handed : List (String × String × ChangeSet) := []
  /-- The custom accessors that fail, and how. -/
  failures : List (String × Error) := []

namespace Script

/-- Tell a script what to answer to a method and path. -/
def respond (s : Script) (method : Method) (path : String) (answer : Answer) : Script :=
  { s with answers := ((method, path), answer) :: s.answers.filter (·.1 ≠ (method, path)) }

/-- Forget what to answer to a method and path. -/
def unrespond (s : Script) (method : Method) (path : String) : Script :=
  { s with answers := s.answers.filter (·.1 ≠ (method, path)) }

def plan (s : Script) (e : PlannedEdit) : Script := { s with edits := s.edits ++ [e] }

/-- Let the custom accessor of a collection fail, or work again. -/
def setFailure (s : Script) (collection : String) (failure : Option Error) : Script :=
  { s with
    failures := (failure.map (collection, ·)).toList ++ s.failures.filter (·.1 ≠ collection) }

/-- What is answered to a request that nothing is told about. -/
def fallback (r : Request) : Answer :=
  match r.method with
  | .patch => .response (.ofJson 200 (.object [("data", r.body.getD .null)]))
  | .get =>
      let message := "Route " ++ r.path ++ " doesn't exist."
      .response (.ofJson 404
        (.object [("errors", .array [.object [("message", .string message)]])]))

def answer (s : Script) (r : Request) : Answer :=
  ((s.answers.find? (·.1 = (r.method, r.path))).map Prod.snd).getD (fallback r)

/-- Make an edit where it can be made. -/
def applyEdit (heap : Heap) (e : PlannedEdit) : Heap :=
  match heap.edit e.entity e.edit with
  | .ok heap => heap
  | .error _ => heap

/-- Note that a request has arrived, and make the edits that were planned for it. -/
def arrive (r : Request) (world : World Script) : World Script :=
  let s := { world.far with requests := world.far.requests ++ [r] }
  match r.method with
  | .get => { world with far := s }
  | .patch =>
      { heap := (s.edits.filter (·.path = r.path)).foldl applyEdit world.heap
        far := { s with edits := s.edits.filter (·.path ≠ r.path) } }

def send (r : Request) : Action Script Response := fun world =>
  match world.far.answer r with
  | .response response => (.ok response, arrive r world)
  | .broken text => (.error (.transport (.reported text)), arrive r world)

/-- Hand changes to a custom accessor, which keeps them also when it is to fail. -/
def handOver (collection id : String) (changes : ChangeSet) : Action Script Unit := fun world =>
  let far := { world.far with handed := world.far.handed ++ [(collection, id, changes)] }
  match (far.failures.find? (·.1 = collection)).map Prod.snd with
  | some e => (.error e, { world with far })
  | none => (.ok (), { world with far })

def gateway : Gateway Script := { send, handOver }

def ping (s : Script) : Result Unit :=
  if s.pingStatus = 200 then .ok ()
  else .error (.healthCheck (.reported ("unexpected status code: " ++ toString s.pingStatus)))

end Script

end ItemClient
