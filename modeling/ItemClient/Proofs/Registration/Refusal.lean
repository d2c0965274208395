import ItemClient.Proofs.Registration.Closure

/-!
# Registration is all or nothing

A registration is refused at an entity (`UnitOfWork.refusal?`) that would have to be tracked while
its collection has no accessor, or that cannot be read. The walk visits a prefix of the
breadth-first order and goes on just as long as nothing is refused (`Walk.Inv.refused`). So a
registration fails exactly when such an entity is reached, with the error of the first of them,
and then nothing has changed at all.

Main result: `UnitOfWork.registerAll_all_or_nothing`.
-/

namespace ItemClient

/-! ## Refusals -/

namespace UnitOfWork

/-- Why a registration is refused at an entity, if it is. -/
def refusal? (u : UnitOfWork) (heap : Heap) (id : EntityId) : Option Error :=
  if id ∉ u.entities ∧ u.accessors.get? (heap.collection id) = none then
    some (AccessorTable.missing (heap.collection id))
  else if heap.isReadable id then none
  else some .poisoned

/-- A registration is refused at what would be tracked without an accessor, and at what cannot
be read. -/
theorem refusal?_ne_none {u : UnitOfWork} {heap : Heap} {id : EntityId} :
    u.refusal? heap id ≠ none ↔
      (id ∉ u.entities ∧ u.accessors.get? (heap.collection id) = none) ∨
        heap.read id = .error .poisoned := by
  rw [← Heap.isReadable_eq_false_iff]
  unfold refusal?
  split
  · simp [*]
  · by_cases hr : heap.isReadable id = true <;> simp [*]

end UnitOfWork

namespace Walk

variable {u : UnitOfWork} {heap : Heap} {roots done : List EntityId} {w w' : Walk}
  {id : EntityId} {queue : List EntityId} {e : Error}

/-- A visit that is refused fails for the reason of the refusal. -/
theorem visit_of_refused (w : Walk) (queue : List EntityId) (h : u.refusal? heap id = some e) :
    visit u heap w id queue = .error e := by
  unfold UnitOfWork.refusal? at h
  split at h
  · rename_i hunowned
    obtain ⟨htracked, hget⟩ := hunowned
    cases h
    have huntracked : u.isTracked id = false := by
      rw [← Bool.not_eq_true, UnitOfWork.isTracked_iff]
      exact htracked
    have hresolve : u.accessors.resolve (heap.collection id) =
        .error (AccessorTable.missing (heap.collection id)) := by
      rw [AccessorTable.resolve, hget]
    simp [visit, discover, huntracked, hresolve, bind, Except.bind]
  · rename_i howned
    split at h
    · cases h
    · rename_i hunreadable
      cases h
      have hread := Heap.isReadable_eq_false_iff.1 (Bool.eq_false_iff.2 hunreadable)
      have hrelated : heap.related id = .error .poisoned := by
        rw [Heap.related, hread]
        rfl
      by_cases htracked : u.isTracked id = true
      · simp [visit, discover, htracked, hrelated, bind, Except.bind]
      · -- The accessor is there, so the reason is the one of the copy.
        have hid : id ∉ u.entities := fun hmem => htracked (UnitOfWork.isTracked_iff.2 hmem)
        obtain ⟨a, ha⟩ := Option.ne_none_iff_exists'.1 fun hnone => howned ⟨hid, hnone⟩
        have hresolve : u.accessors.resolve (heap.collection id) = .ok a := by
          rw [AccessorTable.resolve, ha]
        simp [visit, discover, htracked, hresolve, hread, bind, Except.bind]

/-- A visit that is not refused goes well. -/
theorem exists_visit (w : Walk) (queue : List EntityId) (h : u.refusal? heap id = none) :
    ∃ w', visit u heap w id queue = .ok w' := by
  have hneither : ¬ ((id ∉ u.entities ∧ u.accessors.get? (heap.collection id) = none) ∨
      heap.read id = .error .poisoned) := fun hor => UnitOfWork.refusal?_ne_none.2 hor h
  rw [not_or, ← Heap.isReadable_eq_false_iff, Bool.not_eq_false] at hneither
  obtain ⟨howned, hreadable⟩ := hneither
  obtain ⟨r, hread⟩ := Heap.isReadable_iff.1 hreadable
  have hrelated : heap.related id = .ok r.related := Result.map_eq_ok.2 ⟨r, hread, rfl⟩
  by_cases htracked : u.isTracked id = true
  · exact ⟨_, by simp [visit, discover, htracked, hrelated, bind, Except.bind]; rfl⟩
  · have hid : id ∉ u.entities := fun hmem => htracked (UnitOfWork.isTracked_iff.2 hmem)
    obtain ⟨a, ha⟩ := Option.ne_none_iff_exists'.1 fun hnone => howned ⟨hid, hnone⟩
    have hresolve : u.accessors.resolve (heap.collection id) = .ok a := by
      rw [AccessorTable.resolve, ha]
    exact ⟨_, by simp [visit, discover, htracked, hresolve, hread, hrelated, bind, Except.bind,
      pure, Except.pure]; rfl⟩

/-- **A walk that fails fails at its first refusal.** It has visited a prefix of the breadth-first
order, and the entity that refuses comes next. -/
theorem Inv.refused {visits : Nat} (inv : Inv u heap roots done w)
    (hbegin : done <+: heap.breadthFirst roots) (hdone : ∀ i ∈ done, u.refusal? heap i = none)
    (h : Walk.run u heap visits w = .error e) :
    (heap.breadthFirst roots).findSome? (u.refusal? heap) = some e := by
  induction visits generalizing done w with
  | zero => cases h
  | succ visits ih =>
    cases hq : w.queue with
    | nil =>
      simp only [Walk.run, hq] at h
      cases h
    | cons id queue =>
      have hvisited : done ++ id :: queue <+: heap.breadthFirst roots := by
        have hsighted := inv.visited.symm.trans inv.sighted
        rw [hq] at hsighted
        rw [hsighted]
        exact Heap.isPrefix_sighted hbegin
      simp only [Walk.run, hq] at h
      cases hrefusal : u.refusal? heap id with
      | some e' =>
        rw [visit_of_refused w queue hrefusal] at h
        cases h
        obtain ⟨rest, hrest⟩ := hvisited
        rw [← hrest, List.append_assoc, List.findSome?_append,
          List.findSome?_eq_none_iff.2 hdone, List.cons_append, List.findSome?_cons, hrefusal]
        rfl
      | none =>
        obtain ⟨w', hvisit⟩ := exists_visit w queue hrefusal
        rw [hvisit] at h
        refine ih (inv.visit hq hvisit) ?_ (fun i hi => ?_) h
        · refine List.IsPrefix.trans ?_ hvisited
          exact (List.prefix_append_right_inj done).2 (List.cons_prefix_cons.2 ⟨rfl, List.nil_prefix⟩)
        · rcases List.mem_append.1 hi with hi | hi
          · exact hdone i hi
          · obtain rfl := List.mem_singleton.1 hi
            exact hrefusal

/-! ## Other accessors -/

variable {table : AccessorTable}

/-- An entity that is tracked already is found without its accessor. -/
theorem discover_congr
    (h : id ∉ u.entities → table.get? (heap.collection id) = u.accessors.get? (heap.collection id)) :
    discover { u with accessors := table } heap id = discover u heap id := by
  by_cases hid : id ∈ u.entities
  · have htracked : u.isTracked id = true := UnitOfWork.isTracked_iff.2 hid
    have htracked' : ({ u with accessors := table } : UnitOfWork).isTracked id = true := htracked
    simp [discover, htracked, htracked']
  · have hresolve : table.resolve (heap.collection id) =
        u.accessors.resolve (heap.collection id) := by
      unfold AccessorTable.resolve
      rw [h hid]
    unfold discover
    rw [hresolve]
    rfl

/-- A walk asks for no other accessors than those of reached entities that are not tracked. -/
theorem run_congr {visits : Nat} (hreached : ∀ i ∈ w.queue, heap.Reaches roots i)
    (h : ∀ i, heap.Reaches roots i → i ∉ u.entities →
      table.get? (heap.collection i) = u.accessors.get? (heap.collection i)) :
    run { u with accessors := table } heap visits w = run u heap visits w := by
  induction visits generalizing w with
  | zero => rfl
  | succ visits ih =>
    cases hq : w.queue with
    | nil => simp only [run, hq]
    | cons id queue =>
      have hid : heap.Reaches roots id := hreached id (hq ▸ List.mem_cons_self)
      have hvisit : visit { u with accessors := table } heap w id queue =
          visit u heap w id queue := by
        unfold visit
        rw [discover_congr (h id hid)]
      simp only [run, hq, hvisit]
      cases hw : visit u heap w id queue with
      | error e => rfl
      | ok w' =>
        obtain ⟨found, related, -, hrelated, rfl⟩ := visit_eq_ok hw
        refine ih fun i hi => ?_
        rcases List.mem_append.1 hi with hi | hi
        · exact hreached i (hq ▸ List.mem_cons_of_mem _ hi)
        · exact hid.related hrelated (mem_unseen.1 hi).1

end Walk

/-! ## All or nothing -/

namespace UnitOfWork

variable {u : UnitOfWork} {heap : Heap} {roots : List EntityId}

theorem discoveries_of_error {e : Error} (h : u.discoveries heap roots = .error e) :
    (heap.breadthFirst roots).findSome? (u.refusal? heap) = some e := by
  cases hw : Walk.run u heap (heap.size + 1) (.start roots) with
  | ok w =>
    rw [discoveries, hw] at h
    cases h
  | error e' =>
    rw [discoveries, hw] at h
    cases h
    exact (Walk.Inv.start u heap roots).refused List.nil_prefix (by simp) hw

theorem discoveries_of_ok {found : List Discovery} (h : u.discoveries heap roots = .ok found) :
    (heap.breadthFirst roots).findSome? (u.refusal? heap) = none := by
  obtain ⟨done, w, inv, hq, rfl⟩ := u.discoveries_inv h
  obtain ⟨hdone, -⟩ := inv.done_eq hq
  rw [List.findSome?_eq_none_iff]
  intro id hid
  by_contra hne
  rcases refusal?_ne_none.1 hne with ⟨hnew, hget⟩ | hunreadable
  · have hmem : id ∈ w.found.map Discovery.entity := by
      rw [inv.found, List.mem_filter, Bool.not_eq_true', ← Bool.not_eq_true, isTracked_iff]
      exact ⟨hdone ▸ hid, hnew⟩
    obtain ⟨d, hd, rfl⟩ := List.mem_map.1 hmem
    have howner := (inv.current d hd).owner
    rw [AccessorTable.resolve, hget] at howner
    cases howner
  · obtain ⟨r, hr⟩ := inv.readable id (hdone ▸ hid)
    rw [hr] at hunreadable
    cases hunreadable

/-- What a registration of some roots does, as a whole. -/
structure AllOrNothing (u : UnitOfWork) (heap : Heap) (roots : List EntityId) : Prop where
  /-- It fails exactly when something reached would be tracked without an accessor or cannot be
  read. -/
  fails : (∃ e, (u.registerAll heap roots).1 = .error e) ↔ ∃ id, heap.Reaches roots id ∧
    ((id ∉ u.entities ∧ u.accessors.get? (heap.collection id) = none) ∨
      heap.read id = .error .poisoned)
  /-- The error is the one of the first such entity, breadth first. -/
  first : ∀ e, (u.registerAll heap roots).1 = .error e ↔
    (heap.breadthFirst roots).findSome? (u.refusal? heap) = some e
  order : ∀ id, id ∈ heap.breadthFirst roots ↔ heap.Reaches roots id
  /-- Then the unit of work is what it was, and the observer is told nothing. -/
  frame : ∀ e, (u.registerAll heap roots).1 = .error e → (u.registerAll heap roots).2 = (u, [])
  /-- Accessors matter for what is reached and not tracked, and for nothing else. -/
  accessors : ∀ table : AccessorTable, (∀ id, heap.Reaches roots id → id ∉ u.entities →
      table.get? (heap.collection id) = u.accessors.get? (heap.collection id)) →
    ({ u with accessors := table } : UnitOfWork).registerAll heap roots =
      ((u.registerAll heap roots).1, { (u.registerAll heap roots).2.1 with accessors := table },
        (u.registerAll heap roots).2.2)

theorem registerAll_eq_error_iff {e : Error} : (u.registerAll heap roots).1 = .error e ↔
    (heap.breadthFirst roots).findSome? (u.refusal? heap) = some e := by
  unfold registerAll
  cases hresult : u.discoveries heap roots with
  | ok found => simp [discoveries_of_ok hresult]
  | error e' => simp [discoveries_of_error hresult]

/-- A registration goes well when nothing that is reached refuses. -/
theorem exists_registerAll_eq_ok_iff : (∃ n, (u.registerAll heap roots).1 = .ok n) ↔
    ∀ id, heap.Reaches roots id → u.refusal? heap id = none := by
  have herror : (∀ id, heap.Reaches roots id → u.refusal? heap id = none) ↔
      (heap.breadthFirst roots).findSome? (u.refusal? heap) = none := by
    simp only [List.findSome?_eq_none_iff, Heap.mem_breadthFirst_iff]
  rw [herror]
  cases hresult : (u.registerAll heap roots).1 with
  | ok n =>
    refine ⟨fun _ => Option.eq_none_iff_forall_ne_some.2 fun e he => ?_, fun _ => ⟨n, rfl⟩⟩
    cases (registerAll_eq_error_iff.2 he).symm.trans hresult
  | error e => simp [registerAll_eq_error_iff.1 hresult]

/-- **Registration is all or nothing.** -/
theorem registerAll_all_or_nothing (u : UnitOfWork) (heap : Heap) (roots : List EntityId) :
    AllOrNothing u heap roots := by
  constructor
  case fails =>
    simp only [registerAll_eq_error_iff, ← Option.isSome_iff_exists, List.findSome?_isSome_iff]
    constructor
    · rintro ⟨id, hid, hsome⟩
      exact ⟨id, Heap.mem_breadthFirst_iff.1 hid,
        refusal?_ne_none.1 (Option.isSome_iff_ne_none.1 hsome)⟩
    · rintro ⟨id, hid, hor⟩
      exact ⟨id, Heap.mem_breadthFirst_iff.2 hid,
        Option.isSome_iff_ne_none.2 (refusal?_ne_none.2 hor)⟩
  case first => exact fun e => registerAll_eq_error_iff
  case order => exact fun id => Heap.mem_breadthFirst_iff
  case frame =>
    intro e he
    unfold registerAll at he ⊢
    cases hresult : u.discoveries heap roots with
    | ok found => simp [hresult] at he
    | error e' => rfl
  case accessors =>
    intro table htable
    have hrun : Walk.run { u with accessors := table } heap (heap.size + 1) (.start roots) =
        Walk.run u heap (heap.size + 1) (.start roots) :=
      Walk.run_congr (fun i hi => .root (mem_unseen.1 hi).1) htable
    have hdiscoveries : ({ u with accessors := table } : UnitOfWork).discoveries heap roots =
        u.discoveries heap roots := by
      unfold discoveries
      rw [hrun]
    unfold registerAll
    rw [hdiscoveries]
    cases u.discoveries heap roots <;> rfl

end UnitOfWork

end ItemClient
