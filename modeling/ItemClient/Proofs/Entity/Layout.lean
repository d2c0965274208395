import ItemClient.Proofs.Entity.Stored
import ItemClient.Proofs.Record.Nodes
import ItemClient.Proofs.Registration.BreadthFirst

/-!
# Where the records of a tree lie

A tree is stored from its leaves up, each record at the next address. So its records lie one after
the other, in the order of `Tree.nodes` and each at an address of its own, and the root reaches all
of them and nothing else (`Heap.Lays`). What is true of one tree is true of several that are stored
in turn: no record is shared between them, however alike they are.

Main results: `Heap.lays_addTrees`, `Heap.reaches_addTrees_iff`.
-/

namespace ItemClient.Heap

variable {heap mid after heap' : Heap} {first id : EntityId} {ns ms : List Tree}
  {roots roots' : List EntityId} {t : Tree} {ts : List Tree} {r : Record EntityId}

/-! ## Layouts -/

/-- Between `heap` and `after` the records of `ns` were stored, each at the next address, and the
roots reach them all. Both stay true in `heap'`, which may have more cells. -/
structure Lays (heap' : Heap) (first : EntityId) (heap after : Heap) (ns : List Tree)
    (roots : List EntityId) : Prop where
  size : after.size = heap.size + ns.length
  stores : List.Forall₂ (heap'.Stores first) ns (List.range' heap.size ns.length)
  reaches : ∀ id, heap.size ≤ id → id < after.size → heap'.Reaches roots id

namespace Lays

theorem nil (heap' : Heap) (first : EntityId) (heap : Heap) : Lays heap' first heap heap [] [] where
  size := rfl
  stores := .nil
  reaches _ hle hlt := absurd hle (Nat.not_le.2 hlt)

theorem append (h : Lays heap' first heap mid ns roots)
    (h' : Lays heap' first mid after ms roots') :
    Lays heap' first heap after (ns ++ ms) (roots ++ roots') where
  size := by rw [h'.size, h.size, List.length_append, Nat.add_assoc]
  stores := by
    rw [List.length_append, ← List.range'_append_1, ← h.size]
    exact List.rel_append h.stores h'.stores
  reaches id hle hlt := by
    by_cases hid : id < mid.size
    · exact (h.reaches id hle hid).mono (List.subset_append_left _ _)
    · exact (h'.reaches id (Nat.le_of_not_lt hid) hlt).mono (List.subset_append_right _ _)

/-- A record comes after those that it is related to, and reaches what they reach. -/
theorem node (h : Lays heap' first heap mid ns (r.values.flatMap Value.related))
    (hstores : heap'.Stores first t mid.size) (hread : heap'.read mid.size = .ok r) :
    Lays heap' first heap (mid.add r).1 (ns ++ [t]) [mid.size] where
  size := by rw [size_add, h.size, List.length_append, List.length_singleton, Nat.add_assoc]
  stores := by
    rw [List.length_append, List.length_singleton, ← List.range'_append_1, ← h.size]
    exact List.rel_append h.stores (.cons hstores .nil)
  reaches id hle hlt := by
    have hroot : heap'.Reaches [mid.size] mid.size := .root List.mem_cons_self
    have hrelated : heap'.related mid.size = .ok r.related := Result.map_eq_ok.2 ⟨r, hread, rfl⟩
    rw [size_add, Nat.lt_succ_iff_lt_or_eq] at hlt
    rcases hlt with hlt | rfl
    · refine (h.reaches id hle hlt).trans fun i hi => hroot.related hrelated ?_
      exact Record.mem_related_iff.2 (List.mem_flatMap.1 hi)
    · exact hroot

end Lays

/-! ## The layout of what is stored -/

mutual

theorem lays_addTree (heap : Heap) (t : Tree) (hfirst : first ≤ heap.size)
    (h : heap'.Extends (heap.addTree t).1) :
    Lays heap' first heap (heap.addTree t).1 t.nodes [(heap.addTree t).2] :=
  match t with
  | .node s key vs => by
    have hstores := stores_addTree heap (.node s key vs) hfirst h
    rw [addTree] at h hstores ⊢
    have hvalues := lays_addValues heap vs hfirst (h.trans (add_extends _ _))
    exact hvalues.node hstores (h.read (read_add _ _))

theorem lays_addValues (heap : Heap) (vs : List (Value Tree)) (hfirst : first ≤ heap.size)
    (h : heap'.Extends (heap.addValues vs).1) :
    Lays heap' first heap (heap.addValues vs).1 (Tree.nodesOfValues vs)
      ((heap.addValues vs).2.flatMap Value.related) :=
  match vs with
  | [] => .nil _ _ _
  | v :: vs => by
    have hle := hfirst.trans (addValue_extends heap v).size_le
    rw [addValues] at h ⊢
    exact (lays_addValue heap v hfirst (h.trans (addValues_extends _ vs))).append
      (lays_addValues _ vs hle h)

theorem lays_addValue (heap : Heap) (v : Value Tree) (hfirst : first ≤ heap.size)
    (h : heap'.Extends (heap.addValue v).1) :
    Lays heap' first heap (heap.addValue v).1 (Tree.nodesOfValue v) (heap.addValue v).2.related :=
  match v with
  | .scalar _ => .nil _ _ _
  | .one none => .nil _ _ _
  | .one (some t) => by
    rw [addValue] at h ⊢
    exact lays_addTree heap t hfirst h
  | .many ts => by
    rw [addValue] at h ⊢
    exact lays_addTrees heap ts hfirst h

theorem lays_addTrees (heap : Heap) (ts : List Tree) (hfirst : first ≤ heap.size)
    (h : heap'.Extends (heap.addTrees ts).1) :
    Lays heap' first heap (heap.addTrees ts).1 (Tree.nodesOfTrees ts) (heap.addTrees ts).2 :=
  match ts with
  | [] => .nil _ _ _
  | t :: ts => by
    have hle := hfirst.trans (addTree_extends heap t).size_le
    rw [addTrees] at h ⊢
    exact (lays_addTree heap t hfirst (h.trans (addTrees_extends _ ts))).append
      (lays_addTrees _ ts hle h)

end

/-! ## What is reached -/

/-- What stored trees reach is stored with them. -/
theorem Reaches.exists_stores (hid : heap'.Reaches roots id) (h : heap'.Extends after)
    (hroots : ∀ i ∈ roots, ∃ t, after.Stores first t i) : ∃ t, after.Stores first t id := by
  induction hid with
  | root hid => exact hroots _ hid
  | related _ hrelated hi ih =>
    obtain ⟨t, hstores⟩ := ih
    obtain ⟨r, hread, -, -, hvalues⟩ := hstores.exists_read
    obtain ⟨r', hread', rfl⟩ := Result.map_eq_ok.1 hrelated
    obtain rfl : r = r' := Except.ok.inj ((h.read hread).symm.trans hread')
    obtain ⟨w, hw, hi⟩ := Record.mem_related_iff.1 hi
    obtain ⟨v, -, hrel⟩ := hvalues.exists_left hw
    obtain ⟨t', -, hstores'⟩ := hrel.related.exists_left hi
    exact ⟨t', hstores'⟩

/-- **Trees that were stored reach the new addresses and nothing else.** -/
theorem reaches_addTrees_iff (heap : Heap) (ts : List Tree)
    (h : heap'.Extends (heap.addTrees ts).1) :
    heap'.Reaches (heap.addTrees ts).2 id ↔ heap.size ≤ id ∧ id < (heap.addTrees ts).1.size := by
  constructor
  · intro hid
    have hroots : ∀ i ∈ (heap.addTrees ts).2, ∃ t, (heap.addTrees ts).1.Stores heap.size t i := by
      intro i hi
      obtain ⟨t, -, hstores⟩ := (stores_addTrees heap ts le_rfl (.refl _)).exists_left hi
      exact ⟨t, hstores⟩
    obtain ⟨t, hstores⟩ := hid.exists_stores h hroots
    exact ⟨hstores.le, hstores.lt_size⟩
  · rintro ⟨hle, hlt⟩
    exact (lays_addTrees heap ts le_rfl h).reaches id hle hlt

/-- Trees that are stored in turn have roots of their own. -/
theorem nodup_addTrees (heap : Heap) (ts : List Tree) : (heap.addTrees ts).2.Nodup := by
  induction ts generalizing heap with
  | nil => exact List.nodup_nil
  | cons t ts ih =>
    rw [addTrees, List.nodup_cons]
    refine ⟨fun hmem => ?_, ih _⟩
    have hroot := (stores_addTree heap t le_rfl (.refl _)).lt_size
    obtain ⟨t', -, hstores⟩ :=
      (stores_addTrees (heap.addTree t).1 ts le_rfl (.refl _)).exists_left hmem
    exact absurd hstores.le (Nat.not_le.2 hroot)

end ItemClient.Heap
