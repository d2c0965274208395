import Mathlib.Data.List.Perm.Subperm
import Mathlib.Tactic.ByContra
import ItemClient.Proofs.Outcomes
import ItemClient.UnitOfWork.Registration

/-!
# Reachability and breadth-first order

What a registration is about, said without a queue.

**Reachability** (`Heap.Reaches`). An entity is reached when it is a root or is directly related,
as the records stand, to one that is reached.

**Order** (`Heap.breadthFirst`). The roots come first, in their order; then, distance by
distance, the entities related to those before, in the order of the latter and, below one of
them, in the order of `Record.related`. Each entity stands at its first sighting.

**Main facts.** The breadth-first order holds the reached entities and no others
(`mem_breadthFirst_iff`), each where reading the roots and then the relations of the order itself
sights it first (`breadthFirst_eq`). For each further distance takes another readable entity at
the distance before, and there are no more of these than the heap holds. Any list of reached
entities with first sightings in this sense is the breadth-first order (`eq_breadthFirst`).
-/

namespace ItemClient

/-! ## First sightings -/

section Unseen

variable {seen ids more : List EntityId} {id : EntityId}

theorem mem_unseen : id ∈ unseen seen ids ↔ id ∈ ids ∧ id ∉ seen := by
  induction ids generalizing seen with
  | nil => simp [unseen]
  | cons a ids ih =>
    by_cases ha : a ∈ seen
    · rw [unseen, if_pos ha, ih, List.mem_cons]
      constructor
      · rintro ⟨h, hs⟩
        exact ⟨.inr h, hs⟩
      · rintro ⟨rfl | h, hs⟩
        · exact absurd ha hs
        · exact ⟨h, hs⟩
    · rw [unseen, if_neg ha, List.mem_cons, ih, List.mem_cons, List.mem_append,
        List.mem_singleton]
      by_cases hid : id = a
      · simp [hid, ha]
      · simp [hid]

theorem nodup_unseen (seen ids : List EntityId) : (unseen seen ids).Nodup := by
  induction ids generalizing seen with
  | nil => exact List.nodup_nil
  | cons a ids ih =>
    by_cases ha : a ∈ seen
    · rw [unseen, if_pos ha]
      exact ih seen
    · rw [unseen, if_neg ha, List.nodup_cons]
      exact ⟨fun h => (mem_unseen.1 h).2 (by simp), ih _⟩

/-- First sightings in two lists: those in the first, then those that are new in the second. -/
theorem unseen_append (seen ids more : List EntityId) :
    unseen seen (ids ++ more) = unseen seen ids ++ unseen (seen ++ unseen seen ids) more := by
  induction ids generalizing seen with
  | nil => simp [unseen]
  | cons a ids ih =>
    by_cases ha : a ∈ seen
    · simp only [List.cons_append, unseen, if_pos ha]
      exact ih seen
    · simp only [List.cons_append, unseen, if_neg ha, ih, List.append_assoc, List.nil_append]

theorem unseen_eq_nil (h : ∀ id ∈ ids, id ∈ seen) : unseen seen ids = [] :=
  List.eq_nil_iff_forall_not_mem.2 fun id hid => (mem_unseen.1 hid).2 (h id (mem_unseen.1 hid).1)

end Unseen

/-! ## Reachability -/

namespace Heap

/-- The entities that can be reached from the roots through relations as they stand. -/
inductive Reaches (heap : Heap) (roots : List EntityId) : EntityId → Prop
  | root {id : EntityId} : id ∈ roots → Reaches heap roots id
  | related {id child : EntityId} {ids : List EntityId} :
      Reaches heap roots id → heap.related id = .ok ids → child ∈ ids → Reaches heap roots child

/-- The entities directly related to an entity; none when it cannot be read. -/
def relatives (heap : Heap) (id : EntityId) : List EntityId := (heap.related id).toOption.getD []

/-- The entities at most `distance` relations away from the roots, the nearer ones first. -/
def within (heap : Heap) (roots : List EntityId) : Nat → List EntityId
  | 0 => unseen [] roots
  | distance + 1 =>
      let near := within heap roots distance
      near ++ unseen near (near.flatMap heap.relatives)

/-- All entities that can be reached, breadth first. A shortest way to an entity is no longer
than the heap. -/
def breadthFirst (heap : Heap) (roots : List EntityId) : List EntityId :=
  heap.within roots heap.size

variable {heap : Heap} {roots order : List EntityId} {id : EntityId}

theorem relatives_of_related {ids : List EntityId} (h : heap.related id = .ok ids) :
    heap.relatives id = ids := by
  simp [relatives, h, Except.toOption]

theorem related_of_mem_relatives {child : EntityId} (h : child ∈ heap.relatives id) :
    ∃ ids, heap.related id = .ok ids ∧ child ∈ ids := by
  cases hr : heap.related id with
  | ok ids => exact ⟨ids, rfl, relatives_of_related hr ▸ h⟩
  | error e => simp [relatives, hr, Except.toOption] at h

theorem Reaches.relative {child : EntityId} (h : heap.Reaches roots id)
    (hc : child ∈ heap.relatives id) : heap.Reaches roots child := by
  obtain ⟨ids, hr, hc⟩ := related_of_mem_relatives hc
  exact .related h hr hc

/-- What is reached from roots that are reached is reached. -/
theorem Reaches.trans {roots' : List EntityId} (h : heap.Reaches roots id)
    (hroots : ∀ i ∈ roots, heap.Reaches roots' i) : heap.Reaches roots' id := by
  induction h with
  | root hid => exact hroots _ hid
  | related _ hrelated hc ih => exact ih.related hrelated hc

theorem Reaches.mono {roots' : List EntityId} (h : heap.Reaches roots id)
    (hroots : roots ⊆ roots') : heap.Reaches roots' id :=
  h.trans fun _ hi => .root (hroots hi)

/-- A set that holds the roots and the relatives of its members holds all that is reached. -/
theorem Reaches.mem_of_closed (h : heap.Reaches roots id) {ids : List EntityId}
    (hroots : ∀ r ∈ roots, r ∈ ids) (hclosed : ∀ i ∈ ids, ∀ c ∈ heap.relatives i, c ∈ ids) :
    id ∈ ids := by
  induction h with
  | root hr => exact hroots _ hr
  | related _ hr hc ih => exact hclosed _ ih _ (relatives_of_related hr ▸ hc)

theorem lt_size_of_read {r : Record EntityId} (h : heap.read id = .ok r) : id < heap.size := by
  unfold Heap.read at h
  split at h
  · rename_i hc
    exact (List.getElem?_eq_some_iff.1 hc).1
  · cases h

/-- Whether there is an entity at an address that can be read. -/
def isReadable (heap : Heap) (id : EntityId) : Bool := (heap.read id).toBool

theorem isReadable_iff : heap.isReadable id = true ↔ ∃ r, heap.read id = .ok r := by
  unfold isReadable
  cases heap.read id <;> simp [Except.toBool]

/-- What cannot be read fails in one way. -/
theorem isReadable_eq_false_iff :
    heap.isReadable id = false ↔ heap.read id = .error .poisoned := by
  unfold isReadable read
  split <;> simp [Except.toBool]

theorem isReadable_of_relatives {child : EntityId} (h : child ∈ heap.relatives id) :
    heap.isReadable id = true := by
  obtain ⟨ids, hrelated, -⟩ := related_of_mem_relatives h
  obtain ⟨r, hr, -⟩ := Result.map_eq_ok.1 hrelated
  exact isReadable_iff.2 ⟨r, hr⟩

/-- Distinct readable entities are no more than the heap holds. -/
theorem length_le_size {ids : List EntityId} (hnodup : ids.Nodup)
    (hread : ∀ id ∈ ids, ∃ r, heap.read id = .ok r) : ids.length ≤ heap.size := by
  have hsub : ids ⊆ List.range heap.size := fun id hid => by
    obtain ⟨r, hr⟩ := hread id hid
    exact List.mem_range.2 (lt_size_of_read hr)
  simpa using (List.subperm_of_subset hnodup hsub).length_le

/-! ## Breadth-first order -/

theorem nodup_within (heap : Heap) (roots : List EntityId) (n : Nat) :
    (heap.within roots n).Nodup := by
  induction n with
  | zero => exact nodup_unseen _ _
  | succ n ih =>
    refine List.nodup_append.2 ⟨ih, nodup_unseen _ _, ?_⟩
    rintro a ha b hb rfl
    exact (mem_unseen.1 hb).2 ha

/-- One distance more is what reading the roots and then all relations so far sights. -/
theorem within_succ (heap : Heap) (roots : List EntityId) (n : Nat) :
    heap.within roots (n + 1) =
      unseen [] (roots ++ (heap.within roots n).flatMap heap.relatives) := by
  induction n with
  | zero => simp [within, unseen_append]
  | succ n ih =>
    set near := heap.within roots n with hnear
    set next := unseen near (near.flatMap heap.relatives) with hnext
    have hwithin : heap.within roots (n + 1) = near ++ next := rfl
    -- The relatives of the nearer ones are among those at most `n + 1` away.
    have hold : unseen (near ++ next) (near.flatMap heap.relatives) = [] := by
      refine unseen_eq_nil fun c hc => ?_
      by_cases h : c ∈ near
      · exact List.mem_append_left _ h
      · exact List.mem_append_right _ (mem_unseen.2 ⟨hc, h⟩)
    calc heap.within roots (n + 2)
        = (near ++ next) ++ unseen (near ++ next) ((near ++ next).flatMap heap.relatives) := rfl
      _ = (near ++ next) ++ unseen (near ++ next) (next.flatMap heap.relatives) := by
          rw [List.flatMap_append, unseen_append _ (near.flatMap _), hold, List.nil_append,
            List.append_nil]
      _ = unseen [] (roots ++ near.flatMap heap.relatives ++ next.flatMap heap.relatives) := by
          rw [unseen_append [] (roots ++ _), ← ih, hwithin, List.nil_append]
      _ = unseen [] (roots ++ (heap.within roots (n + 1)).flatMap heap.relatives) := by
          rw [hwithin, List.flatMap_append, List.append_assoc]

/-- An order in which all entities stand at their first sighting begins with the nearest. -/
theorem isPrefix_within (h : order = unseen [] (roots ++ order.flatMap heap.relatives)) (n : Nat) :
    heap.within roots n <+: order := by
  induction n with
  | zero =>
    rw [h, unseen_append]
    exact List.prefix_append _ _
  | succ n ih =>
    obtain ⟨far, hfar⟩ := ih
    rw [within_succ, h]
    conv_rhs => rw [← hfar, List.flatMap_append, ← List.append_assoc, unseen_append]
    exact List.prefix_append _ _

/-- An order of first sightings holds everything that is reached. -/
theorem Reaches.mem_of_sighted (hid : heap.Reaches roots id)
    (h : order = unseen [] (roots ++ order.flatMap heap.relatives)) : id ∈ order := by
  refine hid.mem_of_closed (fun r hr => ?_) fun i hi c hc => ?_
  · rw [h]
    exact mem_unseen.2 ⟨List.mem_append_left _ hr, List.not_mem_nil⟩
  · rw [h]
    exact mem_unseen.2
      ⟨List.mem_append_right _ (List.mem_flatMap.2 ⟨i, hi, hc⟩), List.not_mem_nil⟩

/-! ## The order of any heap -/

/-- What is at one distance more. -/
def further (heap : Heap) (roots : List EntityId) (n : Nat) : List EntityId :=
  unseen (heap.within roots n) ((heap.within roots n).flatMap heap.relatives)

theorem within_succ_eq (heap : Heap) (roots : List EntityId) (n : Nat) :
    heap.within roots (n + 1) = heap.within roots n ++ heap.further roots n := rfl

/-- What is at one distance more is related to something readable at the distance before. -/
theorem exists_of_mem_further {n : Nat} (h : id ∈ heap.further roots (n + 1)) :
    ∃ i ∈ heap.further roots n, heap.isReadable i = true := by
  obtain ⟨hmem, hnew⟩ := mem_unseen.1 h
  obtain ⟨i, hi, hid⟩ := List.mem_flatMap.1 hmem
  refine ⟨i, ?_, isReadable_of_relatives hid⟩
  rw [within_succ_eq] at hi hnew
  rcases List.mem_append.1 hi with hi | hi
  · -- A relative of a nearer one would be at this distance already.
    have hnear : id ∉ heap.within roots n := fun hn => hnew (List.mem_append_left _ hn)
    have hfurther : id ∈ heap.further roots n :=
      mem_unseen.2 ⟨List.mem_flatMap.2 ⟨i, hi, hid⟩, hnear⟩
    exact absurd (List.mem_append_right _ hfurther) hnew
  · exact hi

/-- Up to each distance that something is beyond there are more readable entities than it says. -/
theorem lt_length_readable {n : Nat} (h : heap.further roots n ≠ []) :
    n < ((heap.within roots n).filter heap.isReadable).length := by
  induction n with
  | zero =>
    obtain ⟨id, hid⟩ := List.exists_mem_of_ne_nil _ h
    obtain ⟨i, hi, hc⟩ := List.mem_flatMap.1 (mem_unseen.1 hid).1
    exact List.length_pos_of_mem (List.mem_filter.2 ⟨hi, isReadable_of_relatives hc⟩)
  | succ n ih =>
    obtain ⟨id, hid⟩ := List.exists_mem_of_ne_nil _ h
    obtain ⟨i, hi, hread⟩ := exists_of_mem_further hid
    have hbefore := ih (List.ne_nil_of_mem hi)
    have hmore : 0 < ((heap.further roots n).filter heap.isReadable).length :=
      List.length_pos_of_mem (List.mem_filter.2 ⟨hi, hread⟩)
    rw [within_succ_eq, List.filter_append, List.length_append]
    omega

/-- No distance is beyond the number of entities. -/
theorem further_size (heap : Heap) (roots : List EntityId) :
    heap.further roots heap.size = [] := by
  by_contra hne
  have hlt := lt_length_readable hne
  have hle : ((heap.within roots heap.size).filter heap.isReadable).length ≤ heap.size :=
    length_le_size ((nodup_within heap roots heap.size).filter _) fun i hi =>
      isReadable_iff.1 (List.mem_filter.1 hi).2
  omega

/-- **In the breadth-first order each entity stands at its first sighting.** -/
theorem breadthFirst_eq (heap : Heap) (roots : List EntityId) :
    heap.breadthFirst roots =
      unseen [] (roots ++ (heap.breadthFirst roots).flatMap heap.relatives) := by
  unfold breadthFirst
  rw [← within_succ, within_succ_eq, further_size, List.append_nil]

theorem reaches_of_mem_within {n : Nat} (h : id ∈ heap.within roots n) :
    heap.Reaches roots id := by
  induction n generalizing id with
  | zero => exact .root (mem_unseen.1 h).1
  | succ n ih =>
    rw [within_succ_eq] at h
    rcases List.mem_append.1 h with h | h
    · exact ih h
    · obtain ⟨i, hi, hid⟩ := List.mem_flatMap.1 (mem_unseen.1 h).1
      exact (ih hi).relative hid

/-- **It holds what is reached and nothing else.** -/
theorem mem_breadthFirst_iff : id ∈ heap.breadthFirst roots ↔ heap.Reaches roots id :=
  ⟨reaches_of_mem_within, fun h => h.mem_of_sighted (breadthFirst_eq heap roots)⟩

/-- What reading the roots and the relations of a prefix sights is a prefix. -/
theorem isPrefix_sighted {done : List EntityId} (h : done <+: heap.breadthFirst roots) :
    unseen [] (roots ++ done.flatMap heap.relatives) <+: heap.breadthFirst roots := by
  obtain ⟨rest, hrest⟩ := h
  have hall : heap.breadthFirst roots =
      unseen [] (roots ++ done.flatMap heap.relatives ++ rest.flatMap heap.relatives) := by
    rw [List.append_assoc, ← List.flatMap_append, hrest]
    exact breadthFirst_eq heap roots
  rw [hall, unseen_append [] (roots ++ done.flatMap heap.relatives)]
  exact List.prefix_append _ _

/-- **First sightings are breadth first.** -/
theorem eq_breadthFirst (hreach : ∀ id ∈ order, heap.Reaches roots id)
    (h : order = unseen [] (roots ++ order.flatMap heap.relatives)) :
    order = heap.breadthFirst roots := by
  have hnodup : order.Nodup := h ▸ nodup_unseen _ _
  obtain ⟨rest, hrest⟩ := isPrefix_within h heap.size
  cases rest with
  | nil => rw [← hrest, List.append_nil, breadthFirst]
  | cons a rest =>
    -- What comes after the breadth-first order would come twice.
    have ha : a ∈ order := hrest ▸ List.mem_append_right _ List.mem_cons_self
    have hbefore : a ∈ heap.within roots heap.size := mem_breadthFirst_iff.2 (hreach a ha)
    rw [← hrest, List.nodup_append] at hnodup
    exact absurd rfl (hnodup.2.2 a hbefore a List.mem_cons_self)

end Heap

end ItemClient
