import ItemClient.Proofs.Outcomes
import ItemClient.Proofs.Registration.BreadthFirst

/-!
# The walk of a registration

The loop invariant of `Walk.run` (`Walk.Inv`), for the entities visited so far: those sighted are
the visited ones and those in the queue, in the order in which reading the roots and then the
relations of the visited ones sights them; all of them are reached; and those found are the
visited ones that were not tracked, each with its record as it stands.

A visit keeps the invariant (`Walk.Inv.visit`), so it holds at every iteration of the loop
(`Walk.Iterates.inv`). The visited entities are readable and distinct, hence no more than the heap
holds, so a run with one visit more than that comes to the end of the loop (`Walk.ends_run`).
-/

namespace ItemClient

/-- The accessor and the record of an entity that is to be tracked are those it has now. -/
structure Discovery.Current (u : UnitOfWork) (heap : Heap) (d : Discovery) : Prop where
  owner : u.accessors.resolve (heap.collection d.entity) = .ok d.owner
  original : heap.read d.entity = .ok d.original

/-- The loop invariant of a walk from `roots` that has visited `done`, in this order. -/
structure Walk.Inv (u : UnitOfWork) (heap : Heap) (roots done : List EntityId) (w : Walk) :
    Prop where
  visited : w.visited = done ++ w.queue
  sighted : w.visited = unseen [] (roots ++ done.flatMap heap.relatives)
  reached : ∀ id ∈ w.visited, heap.Reaches roots id
  readable : ∀ id ∈ done, ∃ r, heap.read id = .ok r
  found : w.found.map Discovery.entity = done.filter fun id => !u.isTracked id
  current : ∀ d ∈ w.found, d.Current u heap

namespace Walk

variable {u : UnitOfWork} {heap : Heap} {roots done : List EntityId} {w w' : Walk}

/-- What a visit that goes well consists of. -/
theorem visit_eq_ok {id : EntityId} {queue : List EntityId}
    (h : visit u heap w id queue = .ok w') :
    ∃ found related, discover u heap id = .ok found ∧ heap.related id = .ok related ∧
      w' = { queue := queue ++ unseen w.visited related,
             visited := w.visited ++ unseen w.visited related,
             found := w.found ++ found } := by
  obtain ⟨found, hfound, h⟩ := Result.bind_eq_ok.1 h
  obtain ⟨related, hrelated, h⟩ := Result.bind_eq_ok.1 h
  exact ⟨found, related, hfound, hrelated, (Result.pure_eq_ok.1 h).symm⟩

/-- A walk with nothing in its queue is over. -/
theorem run_of_queue_eq_nil (visits : Nat) (h : w.queue = []) : run u heap visits w = .ok w := by
  cases visits with
  | zero => rfl
  | succ visits => simp only [run, h]

theorem run_succ {id : EntityId} {queue : List EntityId} (visits : Nat)
    (h : w.queue = id :: queue) :
    run u heap (visits + 1) w = (visit u heap w id queue).bind (run u heap visits) := by
  simp only [run, h]
  cases visit u heap w id queue <;> rfl

/-- What is found at one entity: the entity itself, unless it is tracked. -/
theorem discover_eq_ok {id : EntityId} {found : List Discovery}
    (h : discover u heap id = .ok found) :
    found.map Discovery.entity = [id].filter (fun id => !u.isTracked id) ∧
      ∀ d ∈ found, d.Current u heap := by
  unfold discover at h
  split at h
  · rename_i ht
    cases h
    simp [ht]
  · rename_i ht
    obtain ⟨owner, howner, h⟩ := Result.bind_eq_ok.1 h
    obtain ⟨original, horiginal, h⟩ := Result.bind_eq_ok.1 h
    obtain rfl := Result.pure_eq_ok.1 h
    refine ⟨by simp [ht], fun d hd => ?_⟩
    obtain rfl := List.mem_singleton.1 hd
    exact ⟨howner, horiginal⟩

namespace Inv

theorem start (u : UnitOfWork) (heap : Heap) (roots : List EntityId) :
    Inv u heap roots [] (.start roots) where
  visited := rfl
  sighted := by simp [Walk.start]
  reached := fun _ hid => .root (mem_unseen.1 hid).1
  readable := by simp
  found := rfl
  current := by simp [Walk.start]

/-- **A visit keeps the invariant.** -/
theorem visit {id : EntityId} {queue : List EntityId} (inv : Inv u heap roots done w)
    (hq : w.queue = id :: queue) (h : Walk.visit u heap w id queue = .ok w') :
    Inv u heap roots (done ++ [id]) w' := by
  obtain ⟨found, related, hfound, hrelated, rfl⟩ := visit_eq_ok h
  obtain ⟨hentities, hcurrent⟩ := discover_eq_ok hfound
  have hid : id ∈ w.visited := by
    rw [inv.visited, hq]
    exact List.mem_append_right _ List.mem_cons_self
  have hrelatives : heap.relatives id = related := Heap.relatives_of_related hrelated
  constructor
  case visited =>
    simp [inv.visited, hq]
  case sighted =>
    simp only [List.flatMap_append, List.flatMap_cons, List.flatMap_nil, List.append_nil]
    rw [← List.append_assoc, unseen_append, ← inv.sighted, List.nil_append, hrelatives]
  case reached =>
    intro c hc
    rcases List.mem_append.1 hc with hc | hc
    · exact inv.reached c hc
    · exact (inv.reached id hid).related hrelated (mem_unseen.1 hc).1
  case readable =>
    intro i hi
    rcases List.mem_append.1 hi with hi | hi
    · exact inv.readable i hi
    · obtain rfl := List.mem_singleton.1 hi
      obtain ⟨r, hr, -⟩ := Result.map_eq_ok.1 hrelated
      exact ⟨r, hr⟩
  case found => rw [List.map_append, inv.found, hentities, ← List.filter_append]
  case current =>
    intro d hd
    rcases List.mem_append.1 hd with hd | hd
    · exact inv.current d hd
    · exact hcurrent d hd

theorem nodup (inv : Inv u heap roots done w) : done.Nodup := by
  have hnodup := nodup_unseen [] (roots ++ done.flatMap heap.relatives)
  rw [← inv.sighted, inv.visited] at hnodup
  exact (List.nodup_append.1 hnodup).1

/-- At the end of a walk the visited entities are the reached ones, breadth first. -/
theorem done_eq (inv : Inv u heap roots done w) (hq : w.queue = []) :
    done = heap.breadthFirst roots ∧ ∀ id, id ∈ done ↔ heap.Reaches roots id := by
  have hdone : done = w.visited := by rw [inv.visited, hq, List.append_nil]
  have hsighted : done = unseen [] (roots ++ done.flatMap heap.relatives) :=
    hdone.trans inv.sighted
  have hreached : ∀ id ∈ done, heap.Reaches roots id := fun id hid => inv.reached id (hdone ▸ hid)
  exact ⟨Heap.eq_breadthFirst hreached hsighted,
    fun id => ⟨hreached id, fun h => h.mem_of_sighted hsighted⟩⟩

end Inv

/-! ## The loop -/

/-- The loop without a bound: a walk from the roots comes to `w` when it has taken the entities
`done` off its queue, in this order, and the visit of each has gone well. -/
inductive Iterates (u : UnitOfWork) (heap : Heap) (roots : List EntityId) :
    List EntityId → Walk → Prop
  | start : Iterates u heap roots [] (.start roots)
  | next {done queue : List EntityId} {id : EntityId} {w w' : Walk} :
      Iterates u heap roots done w → w.queue = id :: queue → visit u heap w id queue = .ok w' →
      Iterates u heap roots (done ++ [id]) w'

/-- How the loop is left: with an empty queue, or by a visit that fails. Each of the entities that
were taken off the queue has cost an iteration, the last one also when its visit fails. -/
inductive Ends (u : UnitOfWork) (heap : Heap) (roots : List EntityId) :
    List EntityId → Result Walk → Prop
  | emptied {done : List EntityId} {w : Walk} :
      Iterates u heap roots done w → w.queue = [] → Ends u heap roots done (.ok w)
  | failed {done queue : List EntityId} {id : EntityId} {w : Walk} {e : Error} :
      Iterates u heap roots done w → w.queue = id :: queue → visit u heap w id queue = .error e →
      Ends u heap roots (done ++ [id]) (.error e)

namespace Iterates

/-- **The invariant holds at every iteration.** -/
theorem inv (h : Iterates u heap roots done w) : Inv u heap roots done w := by
  induction h with
  | start => exact .start u heap roots
  | next _ hq hvisit ih => exact ih.visit hq hvisit

theorem length_le_size (h : Iterates u heap roots done w) : done.length ≤ heap.size :=
  Heap.length_le_size h.inv.nodup h.inv.readable

/-- A run comes to the end of the loop if it has a visit for each entity and one more. -/
theorem ends_run {visits : Nat} (h : Iterates u heap roots done w)
    (hroom : heap.size < done.length + visits) :
    ∃ dequeued, Ends u heap roots dequeued (Walk.run u heap visits w) := by
  induction visits generalizing done w with
  | zero =>
    have hle := h.length_le_size
    omega
  | succ visits ih =>
    cases hq : w.queue with
    | nil =>
      rw [run_of_queue_eq_nil _ hq]
      exact ⟨done, .emptied h hq⟩
    | cons id queue =>
      rw [run_succ visits hq]
      cases hvisit : Walk.visit u heap w id queue with
      | error e => exact ⟨done ++ [id], .failed h hq hvisit⟩
      | ok w' =>
        refine ih (h.next hq hvisit) ?_
        rw [List.length_append, List.length_singleton]
        omega

end Iterates

theorem ends_run (u : UnitOfWork) (heap : Heap) (roots : List EntityId) :
    ∃ dequeued, Ends u heap roots dequeued (run u heap (heap.size + 1) (.start roots)) :=
  Iterates.start.ends_run (by simp)

/-- A walk that does not fail ends with an empty queue. -/
theorem exists_inv_of_run (h : run u heap (heap.size + 1) (.start roots) = .ok w) :
    ∃ done, Inv u heap roots done w ∧ w.queue = [] := by
  obtain ⟨done, hends⟩ := ends_run u heap roots
  rw [h] at hends
  cases hends with
  | emptied hw hq => exact ⟨done, hw.inv, hq⟩

end Walk

/-- A registration that goes well has walked to the end. -/
theorem UnitOfWork.discoveries_inv {u : UnitOfWork} {heap : Heap} {roots : List EntityId}
    {found : List Discovery} (h : u.discoveries heap roots = .ok found) :
    ∃ done w, Walk.Inv u heap roots done w ∧ w.queue = [] ∧ w.found = found := by
  obtain ⟨w, hw, hfound⟩ := Result.map_eq_ok.1 h
  obtain ⟨done, inv, hq⟩ := Walk.exists_inv_of_run hw
  exact ⟨done, w, inv, hq, hfound⟩

/-! ## What a registration finds -/

/-- **What is found**: the reached entities that were not tracked, breadth first, each once and
each with the accessor and the record that it has now. -/
structure UnitOfWork.Finds (u : UnitOfWork) (heap : Heap) (roots : List EntityId)
    (found : List Discovery) : Prop where
  order : found.map Discovery.entity = (heap.breadthFirst roots).filter fun id => !u.isTracked id
  reached : ∀ id, id ∈ heap.breadthFirst roots ↔ heap.Reaches roots id
  current : ∀ d ∈ found, d.Current u heap

theorem UnitOfWork.discoveries_finds {u : UnitOfWork} {heap : Heap} {roots : List EntityId}
    {found : List Discovery} (h : u.discoveries heap roots = .ok found) :
    u.Finds heap roots found := by
  obtain ⟨done, w, inv, hq, rfl⟩ := u.discoveries_inv h
  obtain ⟨hdone, hmem⟩ := inv.done_eq hq
  exact ⟨hdone ▸ inv.found, hdone ▸ hmem, inv.current⟩

end ItemClient
