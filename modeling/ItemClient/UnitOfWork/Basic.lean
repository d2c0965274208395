import ItemClient.UnitOfWork.Notice
import ItemClient.UnitOfWork.Tracked

/-!
# Units of work

A unit of work tracks entities from the moment they are registered until a commit has gone
through or the tracking is reset. Its tracked entities are listed in the order of registration,
which is also the order in which changes are reported and sent.
-/

namespace ItemClient

structure UnitOfWork where
  accessors : AccessorTable
  /-- The tracked entities, in the order of registration. -/
  records : List Tracked := []
  /-- The place that the next tracked entity gets. -/
  nextSequence : Nat := 0

namespace UnitOfWork

def size (u : UnitOfWork) : Nat := u.records.length

/-- The tracked entities without what is known about them. -/
def entities (u : UnitOfWork) : List EntityId := u.records.map Tracked.entity

def isTracked (u : UnitOfWork) (id : EntityId) : Bool := u.entities.contains id

/-- The changes that a commit would send now, in its order. -/
def pending (u : UnitOfWork) (heap : Heap) : Result (List Pending) :=
  (u.records.mapM (Tracked.pending? heap)).map List.reduceOption

/-- Stop tracking without sending anything. -/
def reset (u : UnitOfWork) : UnitOfWork × Notice := ({ u with records := [] }, .reset u.size)

def shown (u : UnitOfWork) : String :=
  Text.fields "UnitOfWork"
    [("collections", Text.bracketed (u.accessors.names.map Text.quoted))] true

end UnitOfWork

/-- What became of an operation that sends requests on behalf of a unit of work. -/
structure Outcome (ω α : Type) where
  result : Result α
  tracker : UnitOfWork
  notices : List Notice := []
  world : ω

end ItemClient
