import ItemClient.Query
import ItemClient.UnitOfWork.Registration

/-!
# Tracked reads

Reads whose rows are tracked from the start, each with everything that it is related to.
-/

namespace ItemClient.UnitOfWork

variable {σ : Type}

/-- Track entities that were just read, and give them as the result. -/
def track {α : Type} (u : UnitOfWork) (roots : List EntityId) (a : α) (world : World σ) :
    Outcome (World σ) α :=
  match u.registerAll world.heap roots with
  | (.ok _, tracker, notices) => { result := .ok a, tracker, notices, world }
  | (.error e, tracker, notices) => { result := .error e, tracker, notices, world }

/-- An operation that failed before anything was tracked. -/
def failed {α : Type} (u : UnitOfWork) (e : Error) (world : World σ) : Outcome (World σ) α :=
  { result := .error e, tracker := u, world }

/-- The collection of a record type, when the accessor of its name is made for that type. -/
def collection (u : UnitOfWork) (catalog : Catalog) (s : Schema) : Result Collection :=
  (u.accessors.typed s).map fun _ => { catalog, schema := s }

/-- Read the row of a key. -/
def load (u : UnitOfWork) (c : Collection) (g : Gateway σ) (id : String) (params : ReadParams)
    (world : World σ) : Outcome (World σ) EntityId :=
  match c.fetch g id params world with
  | (.ok entity, world) => u.track [entity] entity world
  | (.error e, world) => u.failed e world

/-- All rows that a query matches, in the order of the answer. -/
def toList (u : UnitOfWork) (q : Query) (g : Gateway σ) (world : World σ) :
    Outcome (World σ) (List EntityId) :=
  match q.params with
  | .error e => u.failed e world
  | .ok params =>
      match q.collection.fetchMany g params world with
      | (.ok entities, world) => u.track entities entities world
      | (.error e, world) => u.failed e world

/-- The first row that a query matches; only one is asked for. -/
def first (u : UnitOfWork) (q : Query) (g : Gateway σ) (world : World σ) :
    Outcome (World σ) EntityId :=
  match q.params with
  | .error e => u.failed e world
  | .ok params =>
      match q.collection.fetchMany g { params with limit := some 1 } world with
      | (.ok (entity :: _), world) => u.track [entity] entity world
      | (.ok [], world) => u.failed (.emptyResult q.collection.name) world
      | (.error e, world) => u.failed e world

end ItemClient.UnitOfWork
