import ItemClient.Record.Scalar

/-!
# Schemas

What a record type declares: the collection it lives in, its key, and its members in order. A
member is a scalar field, a relation to one record or a relation to many. Relations name the
record type they lead to; a catalog holds the record types of a program.
-/

namespace ItemClient

/-- What a member of a record holds. -/
inductive MemberType where
  | scalar (kind : Kind)
  | one (target : String)
  | many (target : String)
  deriving DecidableEq

/-- A declared member. -/
structure Member where
  /-- The name of the member in JSON. -/
  wire : String
  type : MemberType
  deriving DecidableEq

/-- A record type. -/
structure Schema where
  model : String
  collection : String
  /-- The name of the key in JSON. -/
  keyWire : String
  keyKind : KeyKind
  /-- The other members, in the order they are declared. -/
  members : List Member
  deriving DecidableEq

namespace Schema

/-- The names of all members in JSON, the key first. -/
def wires (s : Schema) : List String := s.keyWire :: s.members.map Member.wire

/-- The member with a name in JSON. -/
def member? (s : Schema) (wire : String) : Option Member := s.members.find? (·.wire = wire)

end Schema

/-- The record types of a program. -/
abbrev Catalog := List Schema

def Catalog.schema? (catalog : Catalog) (model : String) : Option Schema :=
  List.find? (·.model = model) catalog

/-! ## Members in use -/

/-- What a member of a record holds, related records being given as `ρ`. -/
inductive Value (ρ : Type) where
  | scalar (value : Scalar)
  | one (related : Option ρ)
  | many (related : List ρ)

namespace Value

variable {ρ : Type}

/-- What a member holds that was given nothing. -/
def default : MemberType → Value ρ
  | .scalar kind => scalar (.default kind)
  | .one _ => one none
  | .many _ => many []

/-- The record a relation to one leads to. -/
def toOne? : Value ρ → Option ρ
  | one related => related
  | _ => none

/-- The records a relation to many leads to. -/
def toMany : Value ρ → List ρ
  | many related => related
  | _ => []

end Value

/-- A record: a value for each member of its type. -/
structure Record (ρ : Type) where
  schema : Schema
  key : Key
  /-- The values of its members, in the order of the schema. -/
  values : List (Value ρ)

namespace Record

variable {ρ : Type}

/-- A record of which only the key is known. -/
def stub (schema : Schema) (key : Key) : Record ρ :=
  { schema, key, values := schema.members.map fun m => .default m.type }

/-- The records directly related to a record: those of relations to one, then those of relations
to many, each in the order of the members. -/
def related (r : Record ρ) : List ρ :=
  r.values.filterMap Value.toOne? ++ r.values.flatMap Value.toMany

/-- The value of the member with a name in JSON. -/
def value? (r : Record ρ) (wire : String) : Option (Value ρ) :=
  ((r.schema.members.zip r.values).find? (·.1.wire = wire)).map Prod.snd

/-- Put a value in the member with a name in JSON. -/
def setValue (r : Record ρ) (wire : String) (v : Value ρ) : Record ρ :=
  { r with
    values := (r.schema.members.zip r.values).map fun (m, w) => if m.wire = wire then v else w }

end Record

end ItemClient
