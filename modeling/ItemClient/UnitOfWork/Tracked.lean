import ItemClient.Accessor
import ItemClient.Entity.Heap
import ItemClient.Text.Quoted

/-!
# Tracked entities

What a unit of work knows about one entity: the record as the remote store is believed to hold
it, the accessor that owns the row, and the place in the order of registration. The row is
addressed by the key of the snapshot, not by the live key, which may have been edited.
-/

namespace ItemClient

structure Tracked where
  entity : EntityId
  /-- What the remote store is believed to hold. -/
  original : Snapshot
  owner : Accessor
  /-- Its place in the order of registration. -/
  sequence : Nat

/-- The changes of one entity that wait to be sent. -/
structure Pending where
  collection : String
  /-- The key of its row. -/
  identity : String
  changes : ChangeSet

namespace Tracked

/-- What waits to be sent for a tracked entity, if anything changed. -/
def pending? (heap : Heap) (t : Tracked) : Result (Option Pending) := do
  let changes ← heap.diff t.entity t.original
  if changes.isEmpty then return none
  else
    let identity ← heap.snapshotIdentity t.entity t.original
    return some { collection := heap.collection t.entity, identity, changes }

def shown (heap : Heap) (t : Tracked) : String :=
  Text.fields "TrackingRecord"
    [("collection", Text.quoted (heap.collection t.entity)),
      ("identity", Text.optional ((heap.identity t.entity).toOption.map Text.quoted)),
      ("sequence", toString t.sequence)]
    false

end Tracked

end ItemClient
