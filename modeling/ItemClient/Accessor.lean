import ItemClient.Error
import ItemClient.Json.Members
import ItemClient.Record.Schema

/-!
# Accessors

How the rows of a collection are reached. Each collection has at most one accessor, which is
found by the name of the collection. An accessor made for a record type can also read records of
that type; any other is only able to send changes.
-/

namespace ItemClient

/-- A way to reach the rows of one collection. -/
inductive Accessor where
  /-- Over the link, for records of one type. -/
  | remote (schema : Schema)
  /-- Over the link, without a record type. -/
  | untyped (collection : String)
  /-- By other means, without a record type. -/
  | custom (collection : String)
  deriving DecidableEq

def Accessor.collection : Accessor → String
  | remote schema => schema.collection
  | untyped collection | custom collection => collection

/-- The accessors of a program by the names of their collections. -/
structure AccessorTable where
  /-- The accessors, in ascending order of their names. -/
  entries : Members Accessor := []

namespace AccessorTable

/-- Put an accessor in the table, in place of the one of its collection. -/
def insert (table : AccessorTable) (a : Accessor) : AccessorTable :=
  { entries := table.entries.put a.collection a }

def register (table : AccessorTable) (s : Schema) : AccessorTable := table.insert (.remote s)

/-- The table of accessors for record types, registered in order. -/
def ofCatalog (catalog : Catalog) : AccessorTable := catalog.foldl register {}

def get? (table : AccessorTable) (collection : String) : Option Accessor :=
  table.entries.get? collection

def contains (table : AccessorTable) (collection : String) : Bool := table.entries.has collection

def size (table : AccessorTable) : Nat := table.entries.length

def isEmpty (table : AccessorTable) : Bool := table.entries.isEmpty

/-- The names of the collections, in ascending order. -/
def names (table : AccessorTable) : List String := table.entries.names

/-- A collection is used that has no accessor. -/
def missing (collection : String) : Error :=
  .configuration ("No collection accessor registered for '" ++ collection ++ "'")

/-- Records are asked of an accessor that is not made for their type. -/
def unbound (collection : String) : Error :=
  .configuration
    ("Accessor for '" ++ collection ++ "' is not bound to the requested record type")

/-- The accessor of a collection, which must have one. -/
def resolve (table : AccessorTable) (collection : String) : Result Accessor :=
  match table.get? collection with
  | some a => .ok a
  | none => .error (missing collection)

/-- The accessor for a record type, which must be the one of the type's collection. -/
def typed (table : AccessorTable) (s : Schema) : Result Accessor :=
  match table.get? s.collection with
  | none => .error (missing s.collection)
  | some a => if a = .remote s then .ok a else .error (unbound s.collection)

end AccessorTable

end ItemClient
