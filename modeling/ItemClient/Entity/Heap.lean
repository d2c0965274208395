import ItemClient.Record.ChangeSet
import ItemClient.Record.Tree

/-!
# Live entities

Entities are shared and mutable, and their relations may run in circles, so they live in a heap:
a relation holds the address of the entity it leads to, and two relations with one address lead
to one entity. An entity that broke during an update stays poisoned: every later read and write
of it fails.
-/

namespace ItemClient

/-- The address of an entity. -/
abbrev EntityId := Nat

/-- What is stored at an address. -/
structure Cell where
  record : Record EntityId
  poisoned : Bool := false

/-- All live entities, each at the address of its position. -/
structure Heap where
  cells : List Cell := []

/-- A copy of a record, taken when tracking starts. Its relations still lead to live entities. -/
abbrev Snapshot := Record EntityId

namespace Heap

def size (heap : Heap) : Nat := heap.cells.length

def add (heap : Heap) (r : Record EntityId) : Heap × EntityId :=
  ({ cells := heap.cells ++ [{ record := r }] }, heap.size)

def schema? (heap : Heap) (id : EntityId) : Option Schema :=
  heap.cells[id]?.map (·.record.schema)

def collection (heap : Heap) (id : EntityId) : String :=
  (heap.schema? id).elim "" (·.collection)

def isPoisoned (heap : Heap) (id : EntityId) : Bool := heap.cells[id]?.any (·.poisoned)

def read (heap : Heap) (id : EntityId) : Result (Record EntityId) :=
  match heap.cells[id]? with
  | some { record, poisoned := false } => .ok record
  | _ => .error .poisoned

def write (heap : Heap) (id : EntityId) (r : Record EntityId) : Heap :=
  { cells := heap.cells.set id { record := r } }

def update (heap : Heap) (id : EntityId) (f : Record EntityId → Record EntityId) : Result Heap :=
  (heap.read id).map fun r => heap.write id (f r)

/-- Let an update of the entity at an address break. -/
def poison (heap : Heap) (id : EntityId) : Heap :=
  { cells := heap.cells.modify id fun c => { c with poisoned := true } }

/-- The key of an entity as a segment of a path. -/
def identity (heap : Heap) (id : EntityId) : Result String :=
  (heap.read id).map (·.key.identity)

/-- The key of an entity as it stands in a payload. -/
def reference (heap : Heap) (id : EntityId) : Result Json := (heap.read id).map (·.key.toJson)

def related (heap : Heap) (id : EntityId) : Result (List EntityId) :=
  (heap.read id).map Record.related

/-- How an entity is shown to a developer: by its key alone, as its relations may run in
circles. -/
def shown (heap : Heap) (id : EntityId) : String :=
  let identity :=
    match heap.identity id with
    | .ok identity => identity
    | .error _ => "<poisoned>"
  "Entity(" ++ heap.collection id ++ "#" ++ identity ++ ")"

/-! ## Snapshots -/

/-- A snapshot taken of an entity of another type. -/
def mismatch (s : Schema) : Error :=
  .configuration ("Snapshot type does not match collection '" ++ s.collection ++ "'")

/-- A snapshot seen as one of the entity at an address: it must be of the same type. -/
def snapshotOf (heap : Heap) (id : EntityId) (snapshot : Snapshot) : Result Snapshot :=
  match heap.schema? id with
  | none => .error .poisoned
  | some s => if snapshot.schema = s then .ok snapshot else .error (mismatch s)

/-- The key that a snapshot holds, which is the row that the remote store knows. -/
def snapshotIdentity (heap : Heap) (id : EntityId) (snapshot : Snapshot) : Result String :=
  (heap.snapshotOf id snapshot).map (·.key.identity)

def diff (heap : Heap) (id : EntityId) (snapshot : Snapshot) : Result ChangeSet := do
  let prior ← heap.snapshotOf id snapshot
  let live ← heap.read id
  live.diff heap.reference prior

/-! ## Trees in the heap -/

mutual

/-- Store a record and all it is related to, the related records first. -/
def addTree (heap : Heap) : Tree → Heap × EntityId
  | .node schema key values =>
      let (heap, values) := addValues heap values
      heap.add { schema, key, values }

def addValues (heap : Heap) : List (Value Tree) → Heap × List (Value EntityId)
  | [] => (heap, [])
  | v :: vs =>
      let (heap, v) := addValue heap v
      let (heap, vs) := addValues heap vs
      (heap, v :: vs)

def addValue (heap : Heap) : Value Tree → Heap × Value EntityId
  | .scalar value => (heap, .scalar value)
  | .one none => (heap, .one none)
  | .one (some t) =>
      let (heap, id) := addTree heap t
      (heap, .one (some id))
  | .many ts =>
      let (heap, ids) := addTrees heap ts
      (heap, .many ids)

def addTrees (heap : Heap) : List Tree → Heap × List EntityId
  | [] => (heap, [])
  | t :: ts =>
      let (heap, id) := addTree heap t
      let (heap, ids) := addTrees heap ts
      (heap, id :: ids)

end

/-- What a member holds, with related entities unfolded. -/
def unfoldValue (unfold : EntityId → Option Tree) : Value EntityId → Option (Value Tree)
  | .scalar value => some (.scalar value)
  | .one none => some (.one none)
  | .one (some id) => (unfold id).map fun t => .one (some t)
  | .many ids => (ids.mapM unfold).map .many

/-- An entity with all it is related to, as a tree of at most the given depth. -/
def unfold (heap : Heap) : Nat → EntityId → Option Tree
  | 0, _ => none
  | depth + 1, id =>
      match heap.read id with
      | .error _ => none
      | .ok r => do
          return .node r.schema r.key (← r.values.mapM (unfoldValue (unfold heap depth)))

/-- An entity with all it is related to. There is no such tree when an entity in it cannot be
read, or when relations run in a circle: a path without one is no longer than the heap. -/
def tree? (heap : Heap) (id : EntityId) : Option Tree := heap.unfold heap.size id

def toJson (heap : Heap) (id : EntityId) : Result Json :=
  match heap.tree? id with
  | some t => .ok t.toJson
  | none => .error .decode

end Heap

end ItemClient
