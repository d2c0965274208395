import ItemClient.Json.Outline
import ItemClient.Record.Schema

/-!
# Records as JSON

A record that is read comes with everything it is related to, as a tree. A related record may be
given in full, as an object, or by its key alone, which makes a record of that key and defaults.
Members that are not given take defaults and members that are not declared are skipped.

Read straight from a text, a record may not name a declared member twice; below it, where a
relation is first read as a value, the later of two members counts. In place of its object a
record may be an array of its members in declaration order.
-/

namespace ItemClient

/-- A record with all it is related to. -/
inductive Tree where
  | node (schema : Schema) (key : Key) (values : List (Value Tree))

namespace Tree

def record : Tree → Record Tree
  | node schema key values => { schema, key, values }

/-- A record of which only the key is known. -/
def stub (schema : Schema) (key : Key) : Tree :=
  node schema key (schema.members.map fun m => .default m.type)

/-- The key among named values; a key that is not given is the default of its kind. -/
def readKey? (s : Schema) (fields : List (String × Json)) : Option Key :=
  match Members.get? s.keyWire fields with
  | some j => Key.ofJson? s.keyKind j
  | none => some (.default s.keyKind)

/-- The record of a key and the members that were given. -/
def assemble (s : Schema) (key : Key) (given : Members (Value Tree)) : Tree :=
  node s key (s.members.map fun m => (given.get? m.wire).getD (.default m.type))

/-- The record that a bare key stands for. -/
def ofReference? (s : Schema) (j : Json) : Option Tree := (Key.ofJson? s.keyKind j).map (stub s)

mutual

/-- The declared members among named values. -/
def readMembers? (catalog : Catalog) (s : Schema) :
    List (String × Json) → Option (Members (Value Tree))
  | [] => some []
  | (name, j) :: rest =>
      match s.member? name with
      | none => readMembers? catalog s rest
      | some m => do
          return (name, ← readValue? catalog m.type j) :: (← readMembers? catalog s rest)

def readValue? (catalog : Catalog) (type : MemberType) (j : Json) : Option (Value Tree) :=
  match type with
  | .scalar kind => (Scalar.ofJson? kind j).map .scalar
  | .one target => do
      let s ← catalog.schema? target
      match j with
      | .null => return .one none
      | .object fields =>
          return .one (assemble s (← readKey? s fields) (← readMembers? catalog s fields))
      | j => return .one (← ofReference? s j)
  | .many target => do
      let s ← catalog.schema? target
      match j with
      | .array items => return .many (← readRelated? catalog s items)
      | _ => none

def readRelated? (catalog : Catalog) (s : Schema) : List Json → Option (List Tree)
  | [] => some []
  | .object fields :: rest => do
      let t := assemble s (← readKey? s fields) (← readMembers? catalog s fields)
      return t :: (← readRelated? catalog s rest)
  | j :: rest => do return (← ofReference? s j) :: (← readRelated? catalog s rest)

end

def ofFields? (catalog : Catalog) (s : Schema) (fields : List (String × Json)) : Option Tree := do
  return assemble s (← readKey? s fields) (← readMembers? catalog s fields)

/-- Read a record from a value: an object, or an array of its members in order. -/
def ofJson? (catalog : Catalog) (s : Schema) : Json → Option Tree
  | .object fields => ofFields? catalog s fields
  | .array items =>
      if items.length ≤ s.wires.length then ofFields? catalog s (s.wires.zip items) else none
  | _ => none

/-- Read a record from a value that is its object or stands for it as a bare key. -/
def ofRelation? (catalog : Catalog) (s : Schema) : Json → Option Tree
  | .object fields => ofFields? catalog s fields
  | j => ofReference? s j

/-- Read a record straight from a text. -/
def read? (catalog : Catalog) (s : Schema) (input : List Text.Symbol) : Option Tree := do
  let outline ← Json.Outline.read? input
  let fields ← outline.fields? s.wires
  let values ← fields.mapM fun (name, value) => do
    return (name, ← value.toJson? (Json.maxDepth - 1))
  ofFields? catalog s values

/-- Read a record, or the bare key that stands for it, from a text. -/
def readRelation? (catalog : Catalog) (s : Schema) (input : List Text.Symbol) : Option Tree :=
  (Json.read? input).bind (ofRelation? catalog s)

/-! ## Writing -/

mutual

def toJson : Tree → Json
  | node s key values => .object ((s.keyWire, key.toJson) :: membersToJson s.members values)

def membersToJson : List Member → List (Value Tree) → List (String × Json)
  | m :: ms, v :: vs => (m.wire, valueToJson v) :: membersToJson ms vs
  | _, _ => []

def valueToJson : Value Tree → Json
  | .scalar value => value.toJson
  | .one none => .null
  | .one (some t) => toJson t
  | .many ts => .array (relatedToJson ts)

def relatedToJson : List Tree → List Json
  | [] => []
  | t :: ts => toJson t :: relatedToJson ts

end

end Tree

end ItemClient
