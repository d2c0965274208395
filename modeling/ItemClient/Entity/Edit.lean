import ItemClient.Entity.Heap

/-!
# Edits

The changes that can be made to a live entity in place: of its key, of a scalar, of a relation to
one, and of a relation to many at its end or at one place. An edit fits an entity when the member
exists and takes what it is to hold; one that does not fit changes nothing.
-/

namespace ItemClient

/-- A change of one entity. -/
inductive Edit where
  | key (k : Key)
  | scalar (wire : String) (value : Scalar)
  /-- Let a relation to one lead elsewhere, or nowhere. -/
  | relate (wire : String) (target : Option EntityId)
  | attach (wire : String) (target : EntityId)
  /-- Take the entity at a place out of a relation to many. -/
  | detach (wire : String) (index : Nat)

namespace Edit

/-- What the member with a name in JSON holds by its declaration. -/
def typeOf? (s : Schema) (wire : String) : Option MemberType := (s.member? wire).map Member.type

/-- Whether there is an entity of a record type at an address. -/
def isOf (heap : Heap) (model : String) (id : EntityId) : Bool :=
  (heap.schema? id).any (·.model = model)

/-- Whether an edit fits entities of a record type. -/
def fits (heap : Heap) (s : Schema) : Edit → Bool
  | key k => k.kind = s.keyKind
  | scalar wire value =>
      match typeOf? s wire with
      | some (.scalar kind) => value.hasKind kind
      | _ => false
  | relate wire target =>
      match typeOf? s wire with
      | some (.one model) => target.all (isOf heap model)
      | _ => false
  | attach wire target =>
      match typeOf? s wire with
      | some (.many model) => isOf heap model target
      | _ => false
  | detach wire _ =>
      match typeOf? s wire with
      | some (.many _) => true
      | _ => false

/-- The records that a relation to many of a record leads to. -/
def manyOf (r : Record EntityId) (wire : String) : List EntityId :=
  ((r.value? wire).map Value.toMany).getD []

def apply (r : Record EntityId) : Edit → Record EntityId
  | key k => { r with key := k }
  | scalar wire value => r.setValue wire (.scalar value)
  | relate wire target => r.setValue wire (.one target)
  | attach wire target => r.setValue wire (.many (manyOf r wire ++ [target]))
  | detach wire index => r.setValue wire (.many ((manyOf r wire).eraseIdx index))

end Edit

def Heap.edit (heap : Heap) (id : EntityId) (e : Edit) : Result Heap :=
  (heap.read id).map fun r =>
    if e.fits heap r.schema then heap.write id (e.apply r) else heap

end ItemClient
