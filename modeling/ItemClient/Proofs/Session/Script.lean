import ItemClient.Link.Script
import ItemClient.Proofs.Commit.Resume
import ItemClient.Proofs.Session.Basic

/-!
# Sessions over scripted links

A scripted link is orderly (`Script.orderly`): what it does to the live entities while a PATCH is
under way are edits that the program planned. Without planned edits it is quiet (`Script.quiet`).
-/

namespace ItemClient

namespace Script

theorem changes_applyEdit (heap : Heap) (e : PlannedEdit) : heap.Changes (applyEdit heap e) := by
  unfold applyEdit
  cases h : heap.edit e.entity e.edit with
  | ok heap' => exact .single (.edit h)
  | error err => exact .refl

theorem changes_foldl (edits : List PlannedEdit) (heap : Heap) :
    heap.Changes (edits.foldl applyEdit heap) := by
  induction edits generalizing heap with
  | nil => exact .refl
  | cons e rest ih => exact (changes_applyEdit heap e).trans (ih _)

theorem changes_arrive (r : Request) (world : World Script) :
    world.heap.Changes (arrive r world).heap := by
  unfold arrive
  cases r.method with
  | get => exact .refl
  | patch => exact changes_foldl _ _

/-- What a PATCH over the link does to the world does not depend on the answer. -/
theorem world_patchRow (collection id : String) (changes : ChangeSet) (world : World Script) :
    (gateway.patchRow collection id changes world).2 =
      arrive (.change collection id changes.toJson) world := by
  unfold Gateway.patchRow gateway send
  dsimp only
  cases world.far.answer (.change collection id changes.toJson) <;> rfl

theorem heap_handOver (collection id : String) (changes : ChangeSet) (world : World Script) :
    (handOver collection id changes world).2.heap = world.heap := by
  unfold handOver
  dsimp only
  split <;> rfl

theorem edits_handOver (collection id : String) (changes : ChangeSet) (world : World Script) :
    (handOver collection id changes world).2.far.edits = world.far.edits := by
  unfold handOver
  dsimp only
  split <;> rfl

/-- **A scripted link is orderly.** -/
theorem orderly : gateway.Orderly := by
  intro a id changes world
  rcases gateway.patch_eq a with hpatch | hpatch
  · rw [hpatch, world_patchRow]
    exact changes_arrive _ _
  · rw [hpatch]
    show world.heap.Changes (handOver a.collection id changes world).2.heap
    rw [heap_handOver]
    exact .refl

/-- **A scripted link without planned edits is quiet.** -/
theorem quiet : gateway.Quiet fun s => s.edits = [] := by
  intro a id changes world hedits
  rcases gateway.patch_eq a with hpatch | hpatch
  · rw [hpatch, world_patchRow]
    simp [arrive, Request.change, hedits]
  · rw [hpatch]
    show (handOver a.collection id changes world).2.heap = world.heap ∧
      (handOver a.collection id changes world).2.far.edits = []
    rw [heap_handOver, edits_handOver]
    exact ⟨rfl, hedits⟩

end Script

/-! ## Two tags

A session whose live entities are two tags, of which the first refers to the second. Both are
tracked, and then the first gets another key and the second another name. -/

namespace Session

/-- A record type with a scalar and a relation. -/
def tag : Schema :=
  { model := "tag", collection := "tag", keyWire := "id", keyKind := .text,
    members := [⟨"name", .scalar .text⟩, ⟨"of", .one "tag"⟩] }

/-- A tag. -/
def tagOf (key name : String) (of : Option EntityId) : Record EntityId :=
  { schema := tag, key := .text key, values := [.scalar (.text name), .one of] }

/-- Two tags, before anything is tracked. -/
def tags : Session :=
  { tracker := { accessors := .ofCatalog [tag] }
    heap := { cells := [⟨tagOf "a" "first" (some 1), false⟩, ⟨tagOf "b" "second" none, false⟩] } }

theorem wellFormed_tagOf (key name : String) (of : Option EntityId) :
    (tagOf key name of).WellFormed where
  wires := by
    show tag.wires.Nodup
    decide
  values := .cons trivial (.cons trivial .nil)

theorem isInitial_tags : tags.IsInitial where
  heap := by
    intro id r h
    match id, h with
    | 0, h =>
      cases h
      exact ⟨wellFormed_tagOf _ _ _, by simp [Heap.Closes, tagOf, Record.related, Value.toOne?,
        Value.toMany, Heap.size, tags]⟩
    | 1, h =>
      cases h
      exact ⟨wellFormed_tagOf _ _ _, by simp [Heap.Closes, tagOf, Record.related, Value.toOne?,
        Value.toMany]⟩
    | _ + 2, h => cases h
  records := rfl
  accessors := ⟨[.remote tag], rfl⟩

/-- Both tags are tracked, and the first has another key. -/
def rekeyed : Session :=
  { tags.registerAll [0] with
    heap := { cells := [⟨tagOf "x" "first" (some 1), false⟩, ⟨tagOf "b" "second" none, false⟩] } }

/-- The second has another name as well. -/
def edited : Session :=
  { rekeyed with
    heap := { cells := [⟨tagOf "x" "first" (some 1), false⟩, ⟨tagOf "b" "new" none, false⟩] } }

theorem reachable_edited : edited.Reachable := by
  have hkey : (tags.registerAll [0]).heap.edit 0 (.key (.text "x")) = .ok rekeyed.heap := rfl
  have hname : rekeyed.heap.edit 1 (.scalar "name" (.text "new")) = .ok edited.heap := rfl
  have hregister : Step tags (tags.registerAll [0]) := .register [0]
  have hrekeyed : Step (tags.registerAll [0]) rekeyed := .change (.edit hkey)
  have hedited : Step rekeyed edited := .change (.edit hname)
  exact ⟨tags, isInitial_tags, ((Relation.ReflTransGen.single hregister).tail hrekeyed).tail hedited⟩

end Session

end ItemClient
