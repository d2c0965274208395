import Mathlib.Data.List.Nodup
import Mathlib.Data.List.ReduceOption
import ItemClient.Proofs.Commit.Turns
import ItemClient.Proofs.Registration.Walk

/-!
# Registration is graph closure

After a registration that goes well the tracked entities are those tracked before and those that
the roots reach, and the new ones come last, breadth first. The order of the tracked entities is
the order in which what waits to be sent is listed and in which a commit gives turns.

Main result: `UnitOfWork.registerAll_grows`.
-/

namespace ItemClient

namespace Discovery

theorem entities_track (first : Nat) (found : List Discovery) :
    (track first found).map Tracked.entity = found.map Discovery.entity := by
  induction found generalizing first with
  | nil => rfl
  | cons d rest ih => simp only [track, List.map_cons, ih]

theorem sequences_track (first : Nat) (found : List Discovery) :
    (track first found).map Tracked.sequence = List.range' first found.length := by
  induction found generalizing first with
  | nil => rfl
  | cons d rest ih => simp only [track, List.map_cons, ih, List.length_cons, List.range'_succ]

theorem length_track (first : Nat) (found : List Discovery) :
    (track first found).length = found.length := by
  rw [← List.length_map Tracked.entity, entities_track, List.length_map]

/-- A new tracked entity comes from one that was found. -/
theorem mem_track {first : Nat} {found : List Discovery} {t : Tracked}
    (ht : t ∈ track first found) :
    ∃ d ∈ found, t.entity = d.entity ∧ t.original = d.original ∧ t.owner = d.owner := by
  induction found generalizing first with
  | nil => simp [track] at ht
  | cons d rest ih =>
    rcases List.mem_cons.1 ht with rfl | ht
    · exact ⟨d, List.mem_cons_self, rfl, rfl, rfl⟩
    · obtain ⟨d', hd', h⟩ := ih ht
      exact ⟨d', List.mem_cons_of_mem _ hd', h⟩

end Discovery

namespace UnitOfWork

variable {u u' : UnitOfWork} {heap : Heap} {roots : List EntityId} {n : Nat}
  {notices : List Notice}

theorem isTracked_iff {id : EntityId} : u.isTracked id = true ↔ id ∈ u.entities := by
  simp [isTracked]

/-- A registration that goes well has found something to track, maybe nothing. -/
theorem registerAll_eq_ok (h : u.registerAll heap roots = (.ok n, u', notices)) :
    ∃ found, u.Finds heap roots found ∧ n = found.length ∧ u' = u.adopt found := by
  unfold registerAll at h
  split at h
  · rename_i found hfound
    cases h
    exact ⟨found, discoveries_finds hfound, rfl, rfl⟩
  · cases h

/-- A registration that fails leaves the unit of work as it was. -/
theorem registerAll_eq_error {e : Error} (h : u.registerAll heap roots = (.error e, u', notices)) :
    u' = u := by
  unfold registerAll at h
  split at h <;> cases h
  rfl

theorem entities_adopt (u : UnitOfWork) (found : List Discovery) :
    (u.adopt found).entities = u.entities ++ found.map Discovery.entity := by
  simp only [UnitOfWork.entities, adopt, List.map_append, Discovery.entities_track]

namespace Finds

variable {found : List Discovery}

/-- What is found is what is reached and was not tracked. -/
theorem mem_iff (hfound : u.Finds heap roots found) {id : EntityId} :
    id ∈ found.map Discovery.entity ↔ heap.Reaches roots id ∧ id ∉ u.entities := by
  rw [hfound.order, List.mem_filter, hfound.reached, Bool.not_eq_true', ← Bool.not_eq_true,
    isTracked_iff]

/-- Tracked afterwards is what was tracked before and what is reached. -/
theorem mem_entities_adopt (hfound : u.Finds heap roots found) {id : EntityId} :
    id ∈ (u.adopt found).entities ↔ id ∈ u.entities ∨ heap.Reaches roots id := by
  rw [entities_adopt, List.mem_append, hfound.mem_iff]
  by_cases hid : id ∈ u.entities <;> simp [hid]

theorem nodup (hfound : u.Finds heap roots found) : (found.map Discovery.entity).Nodup :=
  hfound.order ▸ (Heap.nodup_within _ _ _).filter _

/-- Each entity stays tracked once. -/
theorem nodup_adopt (hfound : u.Finds heap roots found) (hnodup : u.entities.Nodup) :
    (u.adopt found).entities.Nodup := by
  rw [entities_adopt]
  exact hnodup.append hfound.nodup fun id hold hid => (hfound.mem_iff.1 hid).2 hold

/-- A tracked entity that comes from what was found is tracked now and was not before. -/
theorem isNew (hfound : u.Finds heap roots found) {first : Nat} {t : Tracked}
    (ht : t ∈ Discovery.track first found) :
    ((u.adopt found).isTracked t.entity && !u.isTracked t.entity) = true := by
  obtain ⟨d, hd, hentity, -⟩ := Discovery.mem_track ht
  have hmem : t.entity ∈ found.map Discovery.entity := hentity ▸ List.mem_map_of_mem hd
  have hnow : (u.adopt found).isTracked t.entity = true := by
    rw [isTracked_iff, entities_adopt]
    exact List.mem_append_right _ hmem
  have hbefore : u.isTracked t.entity = false := by
    rw [← Bool.not_eq_true, isTracked_iff]
    exact (hfound.mem_iff.1 hmem).2
  simp [hnow, hbefore]

end Finds

/-- What waits to be sent for two lists of tracked entities, one after the other. -/
theorem pending_append (u : UnitOfWork) (heap : Heap) (old new : List Tracked) :
    pending { u with records := old ++ new } heap =
      (do return (← pending { u with records := old } heap) ++
        (← pending { u with records := new } heap)) := by
  unfold pending
  rw [List.mapM_append]
  cases old.mapM (Tracked.pending? heap) with
  | error e => rfl
  | ok a =>
    cases new.mapM (Tracked.pending? heap) with
    | error e => rfl
    | ok b => simp [bind, Except.bind, pure, Except.pure, Except.map, List.reduceOption_append]

/-- The unit of work `u'` is `u` grown by the entities that the roots reach, listed in `new`. -/
structure Grows (heap : Heap) (roots : List EntityId) (u u' : UnitOfWork) (new : List Tracked) :
    Prop where
  /-- Those tracked before keep their snapshots and their places. -/
  records : u'.records = u.records ++ new
  /-- Tracked are those tracked before and those reached. -/
  entities : ∀ id, id ∈ u'.entities ↔ id ∈ u.entities ∨ heap.Reaches roots id
  /-- The new ones come breadth first. -/
  order : new.map Tracked.entity = (heap.breadthFirst roots).filter fun id => !u.isTracked id
  nodup : (new.map Tracked.entity).Nodup
  /-- A new snapshot is the record as it stands. -/
  originals : ∀ t ∈ new, heap.read t.entity = .ok t.original
  sequences : new.map Tracked.sequence = List.range' u.nextSequence new.length
  /-- What waits to be sent is listed for those tracked before and then for the new ones. -/
  pending : ∀ later, u'.pending later = do
    return (← u.pending later) ++ (← UnitOfWork.pending { u with records := new } later)
  /-- A commit gives turns in this order, as far as it gets. -/
  turns : ∀ {σ : Type} (g : Gateway σ) (world : World σ),
    (Sweep.turns g u'.records world).map Sweep.Turn.tracked <+: u.records ++ new

/-- **Registration is graph closure.** -/
theorem registerAll_grows (h : u.registerAll heap roots = (.ok n, u', notices)) :
    ∃ new, Grows heap roots u u' new ∧ new.length = n := by
  obtain ⟨found, hfound, rfl, rfl⟩ := registerAll_eq_ok h
  set new := Discovery.track u.nextSequence found with hnew
  have hentities : new.map Tracked.entity = found.map Discovery.entity :=
    Discovery.entities_track _ _
  have hlength : new.length = found.length := Discovery.length_track _ _
  refine ⟨new, ?_, hlength⟩
  constructor
  case records => rfl
  case entities => exact fun id => hfound.mem_entities_adopt
  case order => exact hentities.trans hfound.order
  case nodup => exact hentities ▸ hfound.nodup
  case originals =>
    intro t ht
    obtain ⟨d, hd, hentity, horiginal, -⟩ := Discovery.mem_track ht
    rw [hentity, horiginal]
    exact (hfound.current d hd).original
  case sequences => rw [hlength, hnew, Discovery.sequences_track]
  case pending => exact fun later => pending_append u later u.records new
  case turns => exact fun g world => Sweep.isPrefix_turns g _ world

/-! A circle of two, of which the second is related to itself and the first to a tracked entity,
behind which a fourth one lies. -/

/-- A record type whose records are related to records of the same type. -/
def node : Schema :=
  { model := "node", collection := "node", keyWire := "id", keyKind := .text,
    members := [⟨"next", .one "node"⟩, ⟨"others", .many "node"⟩] }

/-- A node. -/
def nodeOf (key : String) (next : Option EntityId) (others : List EntityId) : Record EntityId :=
  { schema := node, key := .text key, values := [.one next, .many others] }

/-- The circle and what lies behind it. -/
def circle : Heap :=
  { cells := [⟨nodeOf "a" (some 1) [2], false⟩, ⟨nodeOf "b" (some 0) [1], false⟩,
      ⟨nodeOf "c" none [3], false⟩, ⟨nodeOf "d" none [], false⟩] }

/-- A unit of work that tracks the third of the nodes. -/
def watcher : UnitOfWork :=
  { accessors := .ofCatalog [node], nextSequence := 5,
    records := [{ entity := 2, original := nodeOf "c" none [], owner := .remote node, sequence := 4 }] }

theorem registerAll_grows_circle :
    ∃ u' new, Grows circle [0, 0] watcher u' new ∧ new.length = 3 ∧
      new.map Tracked.entity = [0, 1, 3] := by
  have h : watcher.registerAll circle [0, 0] = (.ok 3, _, _) := rfl
  obtain ⟨new, hnew, hlength⟩ := registerAll_grows h
  exact ⟨_, new, hnew, hlength, hnew.order.trans rfl⟩

end UnitOfWork

end ItemClient
