import ItemClient.Link.Gateway

/-!
# Collections

Reading the rows of a collection as live entities, and sending changes of a row, without any
tracking.
-/

namespace ItemClient

/-- The rows of a record type. -/
structure Collection where
  catalog : Catalog
  schema : Schema

namespace Collection

variable {σ : Type}

def name (c : Collection) : String := c.schema.collection

/-- The record that the data of an answer describes. -/
def readRow? (c : Collection) : Json → Option Tree := Tree.ofJson? c.catalog c.schema

/-- The records that the data of an answer lists. -/
def readRows? (c : Collection) : Json → Option (List Tree)
  | .array items => items.mapM c.readRow?
  | _ => none

/-- The record that a value describes, or that it describes none. -/
def decodeRow (c : Collection) (data : Json) : Result Tree := Response.decoded (c.readRow? data)

/-- Send a read and decode the data of its answer. -/
def read {α : Type} (g : Gateway σ) (read? : Json → Option α) (r : Request) : Action σ α :=
  fun world =>
    match g.send r world with
    | (.ok response, world) => (Envelope.decode read? response, world)
    | (.error e, world) => (.error e, world)

def rowRequest (c : Collection) (id : String) (params : ReadParams) : Request :=
  params.apply (.row c.name id)

def rowsRequest (c : Collection) (params : ReadParams) : Request := params.apply (.rows c.name)

/-- Read the row of a key as a new entity. -/
def fetch (c : Collection) (g : Gateway σ) (id : String) (params : ReadParams) :
    Action σ EntityId := fun world =>
  match read g c.readRow? (c.rowRequest id params) world with
  | (.ok t, world) =>
      let (heap, entity) := world.heap.addTree t
      (.ok entity, { world with heap })
  | (.error e, world) => (.error e, world)

/-- Read several rows as new entities, in the order of the answer. -/
def fetchMany (c : Collection) (g : Gateway σ) (params : ReadParams) :
    Action σ (List EntityId) := fun world =>
  match read g c.readRows? (c.rowsRequest params) world with
  | (.ok ts, world) =>
      let (heap, entities) := world.heap.addTrees ts
      (.ok entities, { world with heap })
  | (.error e, world) => (.error e, world)

def patch (c : Collection) (g : Gateway σ) (id : String) (changes : ChangeSet) : Action σ Unit :=
  g.patchRow c.name id changes

end Collection

end ItemClient
