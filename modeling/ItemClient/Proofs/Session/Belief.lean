import Mathlib.Logic.Function.Basic
import ItemClient.Proofs.Entity.Change
import ItemClient.Proofs.Record.Row

/-!
# Beliefs

What an onlooker can tell about the rows of the remote store without asking it. When tracking
starts the store is taken to hold the entity as it stands (`Belief.of`), and every acknowledged
change set overwrites what it names (`Belief.overwrite`, `Beliefs.hear`). Nothing else changes a
belief: it never looks at a snapshot.
-/

namespace ItemClient

/-- The key of an entity as it stands in a payload, whether or not it can be read. -/
def Heap.keyOf (heap : Heap) (id : EntityId) : Json :=
  (heap.record? id).elim .null (·.key.toJson)

theorem Heap.keyOf_of_reference {heap : Heap} {id : EntityId} {j : Json}
    (h : heap.reference id = .ok j) : heap.keyOf id = j := by
  obtain ⟨r, hr, rfl⟩ := Result.map_eq_ok.1 h
  rw [keyOf, record?_of_read hr]
  rfl

/-- What a key in a payload is as a segment of a path. -/
def Json.segment? : Json → Option String
  | .string s => some s
  | .number (.integer n _) => some (String.ofList (writeInt n))
  | _ => none

theorem Key.segment?_of_same {k : Key} {j : Json} (h : k.toJson.same j = true) :
    j.segment? = some k.identity := by
  cases k with
  | integer n =>
    cases j with
    | number m =>
      cases m with
      | integer i hi =>
        obtain rfl : n.val = i := by simpa [toJson, Long.toJson, Json.same, Json.Number.same] using h
        rfl
      | float x hx => simp [toJson, Long.toJson, Json.same, Json.Number.same] at h
    | _ => simp [toJson, Long.toJson, Json.same] at h
  | _ => cases j <;> simp_all [toJson, Json.same, Json.segment?, identity]

/-! ## One row -/

/-- What the remote store is believed to hold of an entity. -/
structure Belief where
  /-- Its key and its scalars. -/
  row : List (String × Json) := []
  /-- The keys that its relations to one refer to. -/
  references : List (String × Json) := []

namespace Belief

/-- The entity at an address as it stands. -/
def of (heap : Heap) (id : EntityId) : Belief :=
  (heap.record? id).elim {} fun r => { row := r.row, references := r.references heap.keyOf }

/-- The store takes a change set. -/
def overwrite (b : Belief) (changes : ChangeSet) : Belief :=
  { row := changes.overwrite b.row, references := changes.overwrite b.references }

/-- The key as a segment of a path. -/
def segment? (b : Belief) : Option String := b.row.head?.bind fun (_, j) => j.segment?

theorem of_record? {heap : Heap} {id : EntityId} {r : Record EntityId}
    (h : heap.record? id = some r) :
    of heap id = { row := r.row, references := r.references heap.keyOf } := by
  rw [of, h]
  rfl

/-- A change set without fields changes nothing. -/
theorem overwrite_of_isEmpty {changes : ChangeSet} (h : changes.isEmpty = true) (b : Belief) :
    b.overwrite changes = b := by
  have hid : ∀ row : List (String × Json), changes.overwrite row = row := by
    intro row
    unfold ChangeSet.overwrite
    simp [ChangeSet.get?_of_isEmpty h]
  rw [overwrite, hid, hid]

/-- A row with the key of a record gives that key as a segment. -/
theorem segment?_of_same {b : Belief} {r : Record EntityId}
    (h : Json.sameMembers r.row b.row = true) : b.segment? = some r.key.identity := by
  obtain ⟨row, references⟩ := b
  cases row with
  | nil => simp [Record.row, Json.sameMembers] at h
  | cons entry row =>
    simp only [Record.row, Json.sameMembers, Bool.and_eq_true] at h
    exact Key.segment?_of_same h.1.2

end Belief

/-! ## All rows -/

/-- What is believed of each entity. -/
abbrev Beliefs := EntityId → Belief

namespace Beliefs

/-- Change sets are acknowledged one after the other. -/
def hear (believed : Beliefs) : List (EntityId × ChangeSet) → Beliefs
  | [] => believed
  | (id, changes) :: rest =>
      hear (Function.update believed id ((believed id).overwrite changes)) rest

variable {believed : Beliefs} {id : EntityId} {changes : ChangeSet}
  {acknowledged : List (EntityId × ChangeSet)}

/-- What is acknowledged of others says nothing of an entity. -/
theorem hear_of_notMem (h : id ∉ acknowledged.map Prod.fst) :
    believed.hear acknowledged id = believed id := by
  induction acknowledged generalizing believed with
  | nil => rfl
  | cons entry rest ih =>
    rw [List.map_cons, List.mem_cons, not_or] at h
    rw [hear, ih h.2, Function.update_of_ne h.1]

/-- What is heard first of an entity and never again overwrites what was believed. -/
theorem hear_cons_self (h : id ∉ acknowledged.map Prod.fst) :
    believed.hear ((id, changes) :: acknowledged) id = (believed id).overwrite changes := by
  rw [hear, hear_of_notMem h, Function.update_self]

end Beliefs

end ItemClient
