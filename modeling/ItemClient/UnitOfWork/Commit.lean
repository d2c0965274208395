import ItemClient.Link.Gateway
import ItemClient.UnitOfWork.Basic

/-!
# Commits

A commit goes through the tracked entities in order and sends the changes of each that has any.
When they are acknowledged, the snapshot of the entity advances to the record as it stood before
the changes were computed, so an edit that arrives while they are under way is still a change
afterwards. The first failure ends the commit; what was sent before it stays sent. A commit that
goes through to the end stops all tracking.
-/

namespace ItemClient

/-- What a commit made of a list of tracked entities. -/
structure Sweep (σ : Type) where
  /-- For how many of them changes were sent, if none failed. -/
  result : Result Nat
  records : List Tracked
  notices : List Notice := []
  world : World σ

namespace Sweep

variable {σ : Type}

def stopped (e : Error) (records : List Tracked) (world : World σ) : Sweep σ :=
  { result := .error e, records, world }

/-- Put a tracked entity without changes in front of a sweep. -/
def keep (t : Tracked) (s : Sweep σ) : Sweep σ := { s with records := t :: s.records }

/-- Put a tracked entity whose changes were acknowledged in front of a sweep. -/
def advance (t : Tracked) (p : Pending) (s : Sweep σ) : Sweep σ :=
  { s with
    result := s.result.map (· + 1)
    records := t :: s.records
    notices := .patched p.collection p.identity p.changes :: s.notices }

/-- What a tracked entity has to send, and the snapshot that it is to have afterwards. -/
def prepare (heap : Heap) (t : Tracked) : Result (Option (Pending × Snapshot)) := do
  let candidate ← heap.read t.entity
  let pending ← t.pending? heap
  return pending.map (·, candidate)

/-- Go through tracked entities in order. -/
def run (g : Gateway σ) : List Tracked → World σ → Sweep σ
  | [], world => { result := .ok 0, records := [], world }
  | t :: ts, world =>
      match prepare world.heap t with
      | .error e => stopped e (t :: ts) world
      | .ok none => (run g ts world).keep t
      | .ok (some (p, candidate)) =>
          match g.patch t.owner p.identity p.changes world with
          | (.ok _, world) => (run g ts world).advance { t with original := candidate } p
          | (.error e, world) =>
              { stopped (.persistence p.collection p.identity e) (t :: ts) world with
                notices := [.failed p.collection p.identity e] }

end Sweep

namespace UnitOfWork

variable {σ : Type}

/-- Send all changes. -/
def commit (u : UnitOfWork) (g : Gateway σ) (world : World σ) : Outcome (World σ) CommitReport :=
  let s := Sweep.run g u.records world
  match s.result with
  | .ok patched =>
      let report : CommitReport := { inspected := u.size, patched }
      { result := .ok report, tracker := { u with records := [] },
        notices := s.notices ++ [.finished report], world := s.world }
  | .error e =>
      { result := .error e, tracker := { u with records := s.records }, notices := s.notices,
        world := s.world }

end UnitOfWork

end ItemClient
