import Mathlib.Logic.Relation
import ItemClient.Proofs.Registration.Closure
import ItemClient.Proofs.Session.Sweep

/-!
# Sessions

A unit of work, the live entities, and what the remote store is believed to hold of them, from
the start of a program on. In one step (`Session.Step`) the program changes a live entity, tracks
what some roots reach, commits over any gateway, or stops tracking; the live entities may change
while a commit is under way. Asking what is pending changes nothing and is no step.

**Invariant** (`Session.Inv`). Each entity is tracked once and is faithful. Every step keeps it
(`Inv.step`), so it holds of every session (`Reachable.inv`).
-/

namespace ItemClient

/-! ## Accessors by collection -/

namespace AccessorTable

/-- Each accessor is found under the collection that it reaches. -/
def IsKeyed (table : AccessorTable) : Prop :=
  ∀ collection a, table.get? collection = some a → a.collection = collection

theorem IsKeyed.insert {table : AccessorTable} (h : table.IsKeyed) (a : Accessor) :
    (table.insert a).IsKeyed := by
  intro collection a' hget
  by_cases hc : a.collection = collection
  · subst hc
    have hself := Members.get?_put_self a.collection a table.entries
    obtain rfl : a = a' := Option.some.inj (hself.symm.trans hget)
    rfl
  · exact h collection a' ((Members.get?_put_of_ne hc a table.entries).symm.trans hget)

/-- However accessors are put in a table, each is found under its collection. -/
theorem isKeyed_foldl (accessors : List Accessor) {table : AccessorTable} (h : table.IsKeyed) :
    (accessors.foldl AccessorTable.insert table).IsKeyed := by
  induction accessors generalizing table with
  | nil => exact h
  | cons a rest ih => exact ih (h.insert a)

theorem collection_of_resolve {table : AccessorTable} {collection : String} {a : Accessor}
    (hkeyed : table.IsKeyed) (h : table.resolve collection = .ok a) :
    a.collection = collection := by
  unfold resolve at h
  split at h
  · rename_i a' ha
    cases h
    exact hkeyed _ _ ha
  · cases h

end AccessorTable

/-! ## Steps -/

/-- A program at work. -/
structure Session where
  /-- The unit of work. -/
  tracker : UnitOfWork
  /-- The live entities. -/
  heap : Heap := {}
  /-- What the remote store is believed to hold. -/
  believed : Beliefs := fun _ => {}

namespace Session

variable {s s' : Session}

/-- A session before anything is tracked. -/
structure IsInitial (s : Session) : Prop where
  heap : s.heap.WellFormed
  records : s.tracker.records = []
  accessors : ∃ accessors : List Accessor,
    s.tracker.accessors = accessors.foldl AccessorTable.insert {}

/-- Track what some roots reach. What was not tracked is believed to be as it stands. -/
def registerAll (s : Session) (roots : List EntityId) : Session :=
  let tracker := (s.tracker.registerAll s.heap roots).2.1
  { s with
    tracker
    believed := fun id =>
      if tracker.isTracked id && !s.tracker.isTracked id then .of s.heap id else s.believed id }

/-- The world of a session with some far end. -/
def world {σ : Type} (s : Session) (far : σ) : World σ := { heap := s.heap, far }

/-- Send all changes, and hear what is acknowledged. -/
def commit {σ : Type} (s : Session) (g : Gateway σ) (far : σ) : Session :=
  { tracker := (s.tracker.commit g (s.world far)).tracker
    heap := (s.tracker.commit g (s.world far)).world.heap
    believed := s.believed.hear (Sweep.acknowledged g s.tracker.records (s.world far)) }

/-- Stop tracking. -/
def reset (s : Session) : Session := { s with tracker := s.tracker.reset.1 }

/-- One step of a session. -/
inductive Step (s : Session) : Session → Prop
  | change {heap : Heap} : s.heap.Change heap → Step s { s with heap }
  | register (roots : List EntityId) : Step s (s.registerAll roots)
  | commit {σ : Type} {g : Gateway σ} (far : σ) : g.Orderly → Step s (s.commit g far)
  | reset : Step s s.reset

/-- A session that some run of steps leads to. -/
def Reachable (s : Session) : Prop := ∃ s₀, s₀.IsInitial ∧ Relation.ReflTransGen Step s₀ s

theorem Reachable.tail (h : s.Reachable) (hstep : Step s s') : s'.Reachable := by
  obtain ⟨s₀, hinitial, hsteps⟩ := h
  exact ⟨s₀, hinitial, hsteps.tail hstep⟩

theorem Reachable.commit {σ : Type} {g : Gateway σ} (h : s.Reachable)
    (hg : g.Orderly) (far : σ) : (s.commit g far).Reachable := by
  obtain ⟨s₀, hinitial, hsteps⟩ := h
  exact ⟨s₀, hinitial, hsteps.tail (.commit far hg)⟩

theorem Reachable.changes {heap : Heap} (h : s.Reachable) (hchanges : s.heap.Changes heap) :
    Reachable { s with heap } := by
  induction hchanges with
  | refl => exact h
  | tail _ hchange ih => exact ih.tail (.change hchange)

/-! ## The invariant -/

/-- Each entity is tracked once and is faithful. -/
structure Inv (s : Session) : Prop where
  heap : s.heap.WellFormed
  keyed : s.tracker.accessors.IsKeyed
  nodup : s.tracker.entities.Nodup
  faithful : ∀ t ∈ s.tracker.records, t.Faithful s.heap (s.believed t.entity)

/-- A tracked entity is one of the heap. -/
theorem Inv.lt_size (inv : s.Inv) {id : EntityId} (hid : id ∈ s.tracker.entities) :
    id < s.heap.size := by
  obtain ⟨t, ht, rfl⟩ := List.mem_map.1 hid
  exact (inv.faithful t ht).fits.lt_size

/-- Without tracked entities little is asked. -/
theorem Inv.of_nil (hheap : s.heap.WellFormed) (hkeyed : s.tracker.accessors.IsKeyed)
    (h : s.tracker.records = []) : s.Inv where
  heap := hheap
  keyed := hkeyed
  nodup := by
    rw [UnitOfWork.entities, h]
    exact List.nodup_nil
  faithful := by simp [h]

theorem IsInitial.inv (h : s.IsInitial) : s.Inv := by
  obtain ⟨accessors, haccessors⟩ := h.accessors
  refine .of_nil h.heap ?_ h.records
  rw [haccessors]
  refine AccessorTable.isKeyed_foldl accessors ?_
  intro collection a hget
  cases hget

/-- An entity that is tracked from now on is faithful to the record as it stands. -/
theorem Inv.faithful_of_current (inv : s.Inv) {d : Discovery} {t : Tracked}
    (hd : d.Current s.tracker s.heap) (hentity : t.entity = d.entity)
    (horiginal : t.original = d.original) (howner : t.owner = d.owner) :
    t.Faithful s.heap (.of s.heap t.entity) := by
  have hread : s.heap.read t.entity = .ok t.original := by rw [hentity, horiginal, hd.original]
  have hrecord := Heap.record?_of_read hread
  have hschema := Heap.schema?_of_read hread
  obtain ⟨hwf, hcloses⟩ := inv.heap _ _ hrecord
  have howner : t.owner.collection = t.original.schema.collection := by
    rw [howner, AccessorTable.collection_of_resolve inv.keyed hd.owner, ← hentity,
      Heap.collection, hschema]
    rfl
  rw [Belief.of_record? hrecord]
  exact ⟨⟨hschema, hwf, hcloses, howner⟩, Json.sameMembers_refl _,
    fun key => Record.names_references key _ hwf hwf rfl⟩

theorem Inv.registerAll (inv : s.Inv) (roots : List EntityId) : (s.registerAll roots).Inv := by
  unfold Session.registerAll
  cases hresult : s.tracker.registerAll s.heap roots with
  | mk result rest =>
  obtain ⟨tracker, notices⟩ := rest
  cases result with
  | error e =>
    obtain rfl := UnitOfWork.registerAll_eq_error hresult
    simpa using inv
  | ok n =>
    obtain ⟨found, hfound, -, rfl⟩ := UnitOfWork.registerAll_eq_ok hresult
    refine ⟨inv.heap, inv.keyed, hfound.nodup_adopt inv.nodup, fun t ht => ?_⟩
    rcases List.mem_append.1 ht with ht | ht
    · have hold : s.tracker.isTracked t.entity = true :=
        UnitOfWork.isTracked_iff.2 (List.mem_map_of_mem ht)
      simpa [hold] using inv.faithful t ht
    · obtain ⟨d, hd, hentity, horiginal, howner⟩ := Discovery.mem_track ht
      simpa [hfound.isNew ht] using
        inv.faithful_of_current (hfound.current d hd) hentity horiginal howner

theorem Inv.commit {σ : Type} {g : Gateway σ} (inv : s.Inv) (hg : g.Orderly) (far : σ) :
    (s.commit g far).Inv := by
  have hheap : (Sweep.run g s.tracker.records (s.world far)).world.heap.WellFormed :=
    (Sweep.changes_run hg s.tracker.records (s.world far)).keeps.wellFormed inv.heap
  unfold Session.commit
  cases hresult : (Sweep.run g s.tracker.records (s.world far)).result with
  | ok n =>
    rw [UnitOfWork.commit_of_ok hresult]
    exact .of_nil hheap inv.keyed rfl
  | error e =>
    rw [UnitOfWork.commit_of_error hresult]
    have hnodup : ((Sweep.run g s.tracker.records (s.world far)).records.map
        Tracked.entity).Nodup := by
      rw [Sweep.entities_run]
      exact inv.nodup
    exact ⟨hheap, inv.keyed, hnodup, Sweep.faithful_run hg inv.heap inv.nodup inv.faithful⟩

/-- **Every step keeps the invariant.** -/
theorem Inv.step (inv : s.Inv) (h : Step s s') : s'.Inv := by
  cases h with
  | change hchange =>
    exact ⟨hchange.keeps.wellFormed inv.heap, inv.keyed, inv.nodup,
      fun t ht => (inv.faithful t ht).mono (.single hchange)⟩
  | register roots => exact inv.registerAll roots
  | commit far hg => exact inv.commit hg far
  | reset => exact .of_nil inv.heap inv.keyed rfl

/-- **The invariant holds of every session.** -/
theorem Reachable.inv (h : s.Reachable) : s.Inv := by
  obtain ⟨s₀, hinitial, hsteps⟩ := h
  induction hsteps with
  | refl => exact hinitial.inv
  | tail _ hstep ih => exact ih.step hstep

end Session

end ItemClient
