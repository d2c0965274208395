import ItemClient.Json.Printer
import ItemClient.Timestamp
import ItemClient.Uuid

/-!
# Scalars and keys

The values of single fields, with the kinds they come in. A value is read from JSON by its kind
and written back without it. `Scalar.same` is the equality that decides whether a field changed:
it follows the values, so NaN differs from itself and the two zeros are equal.
-/

namespace ItemClient

/-- A signed integer of 64 bits. -/
structure Long where
  val : Int
  inRange : -0x8000000000000000 ≤ val ∧ val < 0x8000000000000000 := by decide
  deriving DecidableEq

namespace Long

/-- An integer, when 64 bits hold it. -/
def ofInt? (n : Int) : Option Long :=
  if h : -0x8000000000000000 ≤ n ∧ n < 0x8000000000000000 then some ⟨n, h⟩ else none

def toJson (n : Long) : Json :=
  .number (.integer n.val ⟨n.inRange.1, by have := n.inRange.2; omega⟩)

def ofJson? : Json → Option Long
  | .number (.integer n _) => ofInt? n
  | _ => none

end Long

/-! ## Keys -/

/-- What identifies a row of a collection. -/
inductive Key where
  | uuid (u : Uuid)
  | text (s : String)
  | integer (n : Long)
  deriving DecidableEq

/-- The kinds of keys. -/
inductive KeyKind where
  | uuid
  | text
  | integer
  deriving DecidableEq

namespace Key

def kind : Key → KeyKind
  | uuid _ => .uuid
  | text _ => .text
  | integer _ => .integer

/-- The key of a record that was given none. -/
def default : KeyKind → Key
  | .uuid => uuid .nil
  | .text => text ""
  | .integer => integer ⟨0, by decide⟩

/-- The key as a segment of a path. -/
def identity : Key → String
  | uuid u => u.text
  | text s => s
  | integer n => String.ofList (Json.writeInt n.val)

def toJson : Key → Json
  | uuid u => .string u.text
  | text s => .string s
  | integer n => n.toJson

def ofJson? : KeyKind → Json → Option Key
  | .uuid, .string s => (Uuid.read? s.toList).map uuid
  | .text, .string s => some (text s)
  | .integer, j => (Long.ofJson? j).map integer
  | _, _ => none

end Key

/-! ## Scalars -/

/-- The kinds of scalar fields. -/
inductive Kind where
  | uuid
  | text
  | integer
  | float
  | timestamp
  | json
  | optional (kind : Kind)
  | list (kind : Kind)
  deriving DecidableEq

/-- The value of a scalar field. -/
inductive Scalar where
  | uuid (u : Uuid)
  | text (s : String)
  | integer (n : Long)
  | float (x : Binary64)
  | timestamp (t : Timestamp)
  | json (j : Json)
  | absent
  | present (value : Scalar)
  | list (items : List Scalar)

namespace Scalar

/-- The value of a field that was given none. -/
def default : Kind → Scalar
  | .uuid => uuid .nil
  | .text => text ""
  | .integer => integer ⟨0, by decide⟩
  | .float => float (.zero false)
  | .timestamp => timestamp .epoch
  | .json => json .null
  | .optional _ => absent
  | .list _ => list []

mutual

/-- Equality of values. -/
def same : Scalar → Scalar → Bool
  | uuid a, uuid b => a = b
  | text a, text b => a = b
  | integer a, integer b => a = b
  | float a, float b => a.same b
  | timestamp a, timestamp b => a = b
  | json a, json b => a.same b
  | absent, absent => true
  | present a, present b => same a b
  | list a, list b => sameItems a b
  | _, _ => false

def sameItems : List Scalar → List Scalar → Bool
  | [], [] => true
  | a :: as, b :: bs => same a b && sameItems as bs
  | _, _ => false

end

mutual

/-- A value as JSON; nothing, and a double that is not finite, are `null`. -/
def toJson : Scalar → Json
  | uuid u => .string u.text
  | text s => .string s
  | integer n => n.toJson
  | float x => .ofFloat x
  | timestamp t => .string t.text
  | json j => j
  | absent => .null
  | present value => toJson value
  | list items => .array (toJsonItems items)

def toJsonItems : List Scalar → List Json
  | [] => []
  | a :: rest => toJson a :: toJsonItems rest

end

/-- A double from a JSON number of either form. -/
def floatOfJson? : Json → Option Binary64
  | .number (.integer n _) => some (Binary64.ofInt n)
  | .number (.float x _) => some x
  | _ => none

/-- Read a value of a kind. -/
def ofJson? : Kind → Json → Option Scalar
  | .uuid, .string s => (Uuid.read? s.toList).map uuid
  | .text, .string s => some (text s)
  | .integer, j => (Long.ofJson? j).map integer
  | .float, j => (floatOfJson? j).map float
  | .timestamp, .string s => (Timestamp.read? s.toList).map timestamp
  | .json, j => some (json j)
  | .optional _, .null => some absent
  | .optional kind, j => (ofJson? kind j).map present
  | .list kind, .array items => (items.mapM (ofJson? kind)).map list
  | _, _ => none

mutual

/-- Whether a value is of a kind. -/
def hasKind : Kind → Scalar → Bool
  | .uuid, uuid _ => true
  | .text, text _ => true
  | .integer, integer _ => true
  | .float, float _ => true
  | .timestamp, timestamp _ => true
  | .json, json _ => true
  | .optional _, absent => true
  | .optional kind, present value => hasKind kind value
  | .list kind, list items => haveKind kind items
  | _, _ => false

/-- Whether all values of a list are of a kind. -/
def haveKind : Kind → List Scalar → Bool
  | _, [] => true
  | kind, a :: rest => hasKind kind a && haveKind kind rest

end

end Scalar

end ItemClient
