import Mathlib.Data.Set.Card
import ItemClient.Proofs.Registration.Walk

/-!
# Each entity is visited once

How long a registration walks. The loop of the walk is `Walk.Iterates`, which has no bound on its
iterations, and it is left as `Walk.Ends` says.

**At every iteration** (`Walk.Orderly`). Sighted are the entities that were taken off the queue and
those that are in it, none of them in both and none in either twice. What an entity taken off is
related to is sighted. Found are the entities taken off that were not tracked, in this order.

**The end.** All that is sighted is reached, and only finitely many entities are. So as long as
something is in the queue, fewer entities were taken off than are reached
(`Walk.Iterates.length_lt`), and the loop is left after at most that many iterations; after exactly
that many when it is left with an empty queue. A run is this loop (`Walk.Ends.eq_run`): the bound
that it has on its visits never cuts it short.

Main result: `UnitOfWork.registerAll_visits_once`.
-/

namespace ItemClient

/-! ## The number of reached entities -/

namespace Heap

variable {heap : Heap} {roots ids : List EntityId}

/-- What is reached, as a set. -/
def reached (heap : Heap) (roots : List EntityId) : Set EntityId := {id | heap.Reaches roots id}

theorem coe_breadthFirst (heap : Heap) (roots : List EntityId) :
    ((heap.breadthFirst roots).toFinset : Set EntityId) = heap.reached roots := by
  ext id
  simp [reached, mem_breadthFirst_iff]

theorem finite_reached (heap : Heap) (roots : List EntityId) : (heap.reached roots).Finite := by
  rw [← coe_breadthFirst]
  exact Finset.finite_toSet _

theorem ncard_reached (heap : Heap) (roots : List EntityId) :
    (heap.reached roots).ncard = (heap.breadthFirst roots).length := by
  rw [← coe_breadthFirst, Set.ncard_coe_finset]
  exact List.toFinset_card_of_nodup (nodup_within heap roots heap.size)

/-- Distinct entities that are reached are no more than all that are. -/
theorem length_le_ncard_reached (hnodup : ids.Nodup) (hids : ∀ id ∈ ids, heap.Reaches roots id) :
    ids.length ≤ (heap.reached roots).ncard := by
  have hsub : ids ⊆ heap.breadthFirst roots := fun id hid => mem_breadthFirst_iff.2 (hids id hid)
  rw [ncard_reached]
  exact (List.subperm_of_subset hnodup hsub).length_le

end Heap

namespace Walk

variable {u : UnitOfWork} {heap : Heap} {roots done dequeued : List EntityId} {w : Walk}
  {result : Result Walk}

/-! ## At every iteration -/

/-- What holds of a walk whenever it looks at its queue, after the visits of `done`. -/
structure Orderly (u : UnitOfWork) (heap : Heap) (done : List EntityId) (w : Walk) : Prop where
  /-- Sighted is what was taken off the queue and what is in it. -/
  visited : ∀ id, id ∈ w.visited ↔ id ∈ done ∨ id ∈ w.queue
  disjoint : done.Disjoint w.queue
  /-- Nothing was taken off twice. -/
  nodup_done : done.Nodup
  /-- Nothing is in the queue twice. -/
  nodup_queue : w.queue.Nodup
  /-- What the visited entities are related to is sighted. -/
  children : ∀ id ∈ done, ∃ ids, heap.related id = .ok ids ∧ ∀ child ∈ ids, child ∈ w.visited
  /-- Found are the visited entities that were not tracked, in the order of their visits. -/
  found : w.found.map Discovery.entity = done.filter fun id => !u.isTracked id
  nodup_found : (w.found.map Discovery.entity).Nodup

namespace Inv

/-- What is sighted is sighted once. -/
theorem nodup_visited (inv : Inv u heap roots done w) : (done ++ w.queue).Nodup := by
  rw [← inv.visited, inv.sighted]
  exact nodup_unseen _ _

theorem children (inv : Inv u heap roots done w) :
    ∀ id ∈ done, ∃ ids, heap.related id = .ok ids ∧ ∀ child ∈ ids, child ∈ w.visited := by
  intro id hid
  obtain ⟨r, hr⟩ := inv.readable id hid
  have hrelated : heap.related id = .ok r.related := Result.map_eq_ok.2 ⟨r, hr, rfl⟩
  refine ⟨r.related, hrelated, fun child hchild => ?_⟩
  rw [inv.sighted, mem_unseen]
  have hmem : child ∈ heap.relatives id := by rwa [Heap.relatives_of_related hrelated]
  exact ⟨List.mem_append_right _ (List.mem_flatMap.2 ⟨id, hid, hmem⟩), List.not_mem_nil⟩

theorem orderly (inv : Inv u heap roots done w) : Orderly u heap done w := by
  obtain ⟨hdone, hqueue, hdisjoint⟩ := List.nodup_append'.1 inv.nodup_visited
  constructor
  case visited =>
    intro id
    rw [inv.visited, List.mem_append]
  case disjoint => exact hdisjoint
  case nodup_done => exact hdone
  case nodup_queue => exact hqueue
  case children => exact inv.children
  case found => exact inv.found
  case nodup_found =>
    rw [inv.found]
    exact hdone.filter _

end Inv

/-! ## The end -/

/-- **While something is in the queue, fewer entities were visited than are reached.** -/
theorem Iterates.length_lt (h : Iterates u heap roots done w) (hq : w.queue ≠ []) :
    done.length < (heap.reached roots).ncard := by
  have hreached : ∀ id ∈ done ++ w.queue, heap.Reaches roots id := by
    rw [← h.inv.visited]
    exact h.inv.reached
  have hle := Heap.length_le_ncard_reached h.inv.nodup_visited hreached
  have hpos := List.length_pos_of_ne_nil hq
  rw [List.length_append] at hle
  omega

/-- A run that has made the visits of `done` goes on from where they led to. -/
theorem Iterates.run_eq (h : Iterates u heap roots done w) (visits : Nat) :
    run u heap (done.length + visits) (.start roots) = run u heap visits w := by
  induction h generalizing visits with
  | start => rw [List.length_nil, Nat.zero_add]
  | @next done queue id w w' _ hq hvisit ih =>
    have hlength : (done ++ [id]).length + visits = done.length + (visits + 1) := by
      simp only [List.length_append, List.length_singleton]
      omega
    rw [hlength, ih, run_succ visits hq, hvisit]
    rfl

namespace Ends

/-- **The loop ends as a run does**, whose bound is one visit more than the heap has entities. -/
theorem eq_run (h : Ends u heap roots dequeued result) :
    result = run u heap (heap.size + 1) (.start roots) := by
  cases h with
  | emptied hw hq =>
    obtain ⟨visits, hvisits⟩ := Nat.exists_eq_add_of_le hw.length_le_size
    rw [hvisits, Nat.add_assoc, hw.run_eq, run_of_queue_eq_nil (visits + 1) hq]
  | failed hw hq hvisit =>
    obtain ⟨visits, hvisits⟩ := Nat.exists_eq_add_of_le hw.length_le_size
    rw [hvisits, Nat.add_assoc, hw.run_eq, run_succ visits hq, hvisit]
    rfl

/-- The entities that are taken off the queue are among those that are sighted at the end. -/
theorem exists_sighted (h : Ends u heap roots dequeued result) :
    ∃ done w, Iterates u heap roots done w ∧ dequeued <+: done ++ w.queue := by
  cases h with
  | emptied hw hq => exact ⟨_, _, hw, List.prefix_append _ _⟩
  | @failed done queue id w e hw hq hvisit =>
    refine ⟨done, w, hw, queue, ?_⟩
    rw [hq, List.append_assoc, List.singleton_append]

/-- No entity is taken off the queue twice. -/
theorem nodup (h : Ends u heap roots dequeued result) : dequeued.Nodup := by
  obtain ⟨done, w, hw, hbegin⟩ := h.exists_sighted
  exact hw.inv.nodup_visited.sublist hbegin.sublist

/-- **The loop ends after at most as many iterations as there are reached entities.** -/
theorem length_le (h : Ends u heap roots dequeued result) :
    dequeued.length ≤ (heap.reached roots).ncard := by
  refine Heap.length_le_ncard_reached h.nodup fun id hid => ?_
  obtain ⟨done, w, hw, hbegin⟩ := h.exists_sighted
  have hmem : id ∈ w.visited := by
    rw [hw.inv.visited]
    exact hbegin.subset hid
  exact hw.inv.reached id hmem

/-- A loop that does not fail has visited the reached entities, breadth first. -/
theorem dequeued_eq (h : Ends u heap roots dequeued (.ok w)) :
    dequeued = heap.breadthFirst roots := by
  cases h with
  | emptied hw hq => exact (hw.inv.done_eq hq).1

end Ends

end Walk

/-! ## The loop of a registration -/

namespace UnitOfWork

open Walk

variable {u : UnitOfWork} {heap : Heap} {roots : List EntityId}

/-- A registration visits each entity that it reaches once, unless it fails before. -/
structure VisitsOnce (u : UnitOfWork) (heap : Heap) (roots : List EntityId) : Prop where
  /-- At every iteration the walk is in order. -/
  orderly : ∀ {done w}, Iterates u heap roots done w → Orderly u heap done w
  finite : (heap.reached roots).Finite
  /-- Another iteration is begun only while fewer were made than entities are reached. -/
  fewer : ∀ {done w}, Iterates u heap roots done w → w.queue ≠ [] →
    done.length < (heap.reached roots).ncard
  /-- The loop ends. -/
  ends : ∃ dequeued result, Ends u heap roots dequeued result
  /-- The registration tracks what the loop has found then, or fails as the loop does. -/
  outcome : ∀ {dequeued result}, Ends u heap roots dequeued result →
    u.discoveries heap roots = result.map Walk.found ∧
      (u.registerAll heap roots).1 = result.map fun w => w.found.length
  nodup : ∀ {dequeued result}, Ends u heap roots dequeued result → dequeued.Nodup
  /-- It comes after at most as many iterations as there are reached entities. -/
  length_le : ∀ {dequeued result}, Ends u heap roots dequeued result →
    dequeued.length ≤ (heap.reached roots).ncard
  /-- It comes after exactly as many when nothing fails. -/
  length_eq : ∀ {dequeued w}, Ends u heap roots dequeued (.ok w) →
    dequeued.length = (heap.reached roots).ncard

theorem registerAll_fst (u : UnitOfWork) (heap : Heap) (roots : List EntityId) :
    (u.registerAll heap roots).1 = (u.discoveries heap roots).map List.length := by
  unfold registerAll
  cases u.discoveries heap roots <;> rfl

/-- **The loop of a registration ends after visiting each entity once.** -/
theorem registerAll_visits_once (u : UnitOfWork) (heap : Heap) (roots : List EntityId) :
    VisitsOnce u heap roots := by
  constructor
  case orderly => exact fun h => h.inv.orderly
  case finite => exact heap.finite_reached roots
  case fewer => exact fun h hq => h.length_lt hq
  case ends =>
    obtain ⟨dequeued, hends⟩ := Walk.ends_run u heap roots
    exact ⟨dequeued, _, hends⟩
  case outcome =>
    intro dequeued result h
    rw [registerAll_fst, discoveries, ← h.eq_run]
    refine ⟨rfl, ?_⟩
    cases result <;> rfl
  case nodup => exact fun h => h.nodup
  case length_le => exact fun h => h.length_le
  case length_eq =>
    intro dequeued w h
    rw [Heap.ncard_reached, h.dequeued_eq]

end UnitOfWork

end ItemClient
