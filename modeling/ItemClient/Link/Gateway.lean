import ItemClient.Accessor
import ItemClient.Entity.Heap
import ItemClient.Link.Request
import ItemClient.Link.Response

/-!
# The way out

What a program can do to the world around it: send a request over the link, or hand changes to an
accessor of another kind. Both may change the far end, whose state is `σ`, and while they are
under way others may edit live entities. So an action maps a world to a result and the world
afterwards, and the world is there after a failure too.
-/

namespace ItemClient

/-- The live entities and the state of the far end. -/
structure World (σ : Type) where
  heap : Heap
  far : σ

/-- Something that is done to the world and may fail. -/
abbrev Action (σ α : Type) := World σ → Result α × World σ

/-- The ways out of a program. -/
structure Gateway (σ : Type) where
  /-- Send a request over the link. -/
  send : Request → Action σ Response
  /-- Hand the changes of one row to the custom accessor of a collection. -/
  handOver (collection id : String) (changes : ChangeSet) : Action σ Unit

namespace Gateway

variable {σ : Type}

/-- Send the changes of one row of a collection over the link. -/
def patchRow (g : Gateway σ) (collection id : String) (changes : ChangeSet) : Action σ Unit :=
  fun world =>
    match g.send (.change collection id changes.toJson) world with
    | (.ok response, world) => (Envelope.acknowledge response, world)
    | (.error e, world) => (.error e, world)

/-- Send the changes of one row by its accessor. -/
def patch (g : Gateway σ) (a : Accessor) (id : String) (changes : ChangeSet) : Action σ Unit :=
  match a with
  | .remote s => g.patchRow s.collection id changes
  | .untyped collection => g.patchRow collection id changes
  | .custom collection => g.handOver collection id changes

/-- There are two ways to send changes, and both name the collection of the accessor. -/
theorem patch_eq (g : Gateway σ) (a : Accessor) :
    g.patch a = g.patchRow a.collection ∨ g.patch a = g.handOver a.collection := by
  cases a with
  | remote s => exact .inl rfl
  | untyped collection => exact .inl rfl
  | custom collection => exact .inr rfl

end Gateway

end ItemClient
