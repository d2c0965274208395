import ItemClient.UnitOfWork.Basic

/-!
# Registration

Registering an entity tracks everything that can be reached from it. The walk is breadth first:
it keeps a queue of entities that were sighted and not yet visited, and visits each once, also
those that are tracked already, as new ones may lie behind them. A visit fails when an entity
cannot be read, or when it is to be tracked and its collection has no accessor; then nothing is
tracked at all.
-/

namespace ItemClient

/-- The entries of a list that are not among those seen, each at its first place only. -/
def unseen (seen : List EntityId) : List EntityId → List EntityId
  | [] => []
  | id :: rest => if id ∈ seen then unseen seen rest else id :: unseen (seen ++ [id]) rest

/-- An entity that is to be tracked. -/
structure Discovery where
  entity : EntityId
  owner : Accessor
  original : Snapshot

/-- A walk over entities and their relations. -/
structure Walk where
  /-- The entities that are still to be visited, in order. -/
  queue : List EntityId
  /-- The entities that were sighted, visited or not. -/
  visited : List EntityId
  /-- The entities that are to be tracked, in the order of their visits. -/
  found : List Discovery := []

namespace Walk

def start (roots : List EntityId) : Walk :=
  let roots := unseen [] roots
  { queue := roots, visited := roots }

/-- What the visit of an entity adds to those that are to be tracked. -/
def discover (u : UnitOfWork) (heap : Heap) (id : EntityId) : Result (List Discovery) :=
  if u.isTracked id then .ok []
  else do
    let owner ← u.accessors.resolve (heap.collection id)
    let original ← heap.read id
    return [{ entity := id, owner, original }]

/-- Visit the entity `id`, taken off the queue. -/
def visit (u : UnitOfWork) (heap : Heap) (w : Walk) (id : EntityId) (queue : List EntityId) :
    Result Walk := do
  let found ← discover u heap id
  let related ← heap.related id
  let sighted := unseen w.visited related
  return { queue := queue ++ sighted, visited := w.visited ++ sighted, found := w.found ++ found }

/-- Go on with a walk for at most a number of visits. -/
def run (u : UnitOfWork) (heap : Heap) : Nat → Walk → Result Walk
  | 0, w => .ok w
  | visits + 1, w =>
      match w.queue with
      | [] => .ok w
      | id :: queue =>
          match visit u heap w id queue with
          | .ok w => run u heap visits w
          | .error e => .error e

end Walk

/-- Entities that are tracked from now on, with places from `first` on. -/
def Discovery.track (first : Nat) : List Discovery → List Tracked
  | [] => []
  | d :: rest =>
      { entity := d.entity, original := d.original, owner := d.owner, sequence := first } ::
        track (first + 1) rest

/-- What the observer is told of an entity that is tracked. -/
def Discovery.notice (d : Discovery) : Notice :=
  .tracked d.original.schema.collection d.original.key.identity

namespace UnitOfWork

/-- The entities that registering would add to those that are tracked, in order. Each visit is of
another entity and fails where there is none, so the walk ends within one more visit than there
are entities. -/
def discoveries (u : UnitOfWork) (heap : Heap) (roots : List EntityId) : Result (List Discovery) :=
  (Walk.run u heap (heap.size + 1) (.start roots)).map Walk.found

def adopt (u : UnitOfWork) (found : List Discovery) : UnitOfWork :=
  { u with
    records := u.records ++ Discovery.track u.nextSequence found
    nextSequence := u.nextSequence + found.length }

/-- Track everything that can be reached from the roots. The result is the number of entities
that were not tracked before. -/
def registerAll (u : UnitOfWork) (heap : Heap) (roots : List EntityId) :
    Result Nat × UnitOfWork × List Notice :=
  match u.discoveries heap roots with
  | .ok found => (.ok found.length, u.adopt found, found.map Discovery.notice)
  | .error e => (.error e, u, [])

/-- Track everything that can be reached from an entity. -/
def register (u : UnitOfWork) (heap : Heap) (root : EntityId) :
    Result Nat × UnitOfWork × List Notice :=
  u.registerAll heap [root]

end UnitOfWork

end ItemClient
