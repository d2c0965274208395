import ItemClient.Error
import ItemClient.Json.Printer
import ItemClient.Record.Schema

/-!
# Change sets

The changed fields of one record by their names in JSON. A field that became absent is there
with an explicit `null`. `Record.diff` compares two records of one type: a scalar is in the change
set when its values differ, a relation to one when the keys of the related records differ, and
relations to many are never compared.
-/

namespace ItemClient

/-- Changed fields and their new values. -/
structure ChangeSet where
  /-- The fields, in ascending order. -/
  fields : Members Json := []

namespace ChangeSet

def insert (changes : ChangeSet) (field : String) (value : Json) : ChangeSet :=
  { fields := changes.fields.put field value }

def get? (changes : ChangeSet) (field : String) : Option Json := changes.fields.get? field

def contains (changes : ChangeSet) (field : String) : Bool := changes.fields.has field

def size (changes : ChangeSet) : Nat := changes.fields.length

def isEmpty (changes : ChangeSet) : Bool := changes.fields.isEmpty

def names (changes : ChangeSet) : List String := changes.fields.names

def toJson (changes : ChangeSet) : Json := .object changes.fields

/-- The text of a change set, as it is sent. -/
def text (changes : ChangeSet) : String := changes.toJson.text

/-- Note a scalar field when its live value differs from the prior one. -/
def track (changes : ChangeSet) (field : String) (live prior : Scalar) : ChangeSet :=
  if live.same prior then changes else changes.insert field live.toJson

/-- Equality of references, absence being equal to absence alone. -/
def sameReference : Option Json → Option Json → Bool
  | none, none => true
  | some a, some b => a.same b
  | _, _ => false

/-- Note a relation when the key it refers to differs from the prior one. -/
def trackReference (changes : ChangeSet) (field : String) (live prior : Option Json) :
    ChangeSet :=
  if sameReference live prior then changes else changes.insert field (live.getD .null)

end ChangeSet

namespace Record

variable {ρ : Type}

/-- The key of the related record, if there is one. -/
def referenceOf? (reference : ρ → Result Json) : Option ρ → Result (Option Json)
  | none => .ok none
  | some r => (reference r).map some

/-- Note the members that changed, going through them in order. `reference` gives the key of a
related record as it stands now. -/
def diffMembers (reference : ρ → Result Json) :
    List Member → List (Value ρ) → List (Value ρ) → ChangeSet → Result ChangeSet
  | m :: ms, v :: vs, w :: ws, changes =>
      match v, w with
      | .scalar live, .scalar prior =>
          diffMembers reference ms vs ws (changes.track m.wire live prior)
      | .one live, .one prior => do
          let live ← referenceOf? reference live
          let prior ← referenceOf? reference prior
          diffMembers reference ms vs ws (changes.trackReference m.wire live prior)
      | _, _ => diffMembers reference ms vs ws changes
  | _, _, _, changes => .ok changes

/-- Note the key when it changed. -/
def diffKey (live prior : Record ρ) : ChangeSet :=
  if live.key = prior.key then {} else ({} : ChangeSet).insert live.schema.keyWire live.key.toJson

def diff (reference : ρ → Result Json) (live prior : Record ρ) : Result ChangeSet :=
  diffMembers reference live.schema.members live.values prior.values (diffKey live prior)

end Record

end ItemClient
