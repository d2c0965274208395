import ItemClient.Proofs.Commit.Resume
import ItemClient.Proofs.Entity.Stored
import ItemClient.Proofs.Record.Nodes

/-!
# What storing leaves alone

Cells that are added to the heap change nothing about the entities that were there. So a tracked
entity has to send afterwards what it had to send before, or cannot be compared for the same reason
as before (`Tracked.Fits.pending?_extends`). An entity that was just stored and is tracked as it
stands has nothing to send (`Heap.Stores.pending?_eq_none`): what it is related to can be read, and
nothing that was read differs from itself.
-/

namespace ItemClient

namespace Heap

variable {heap heap' : Heap} {first id : EntityId} {snapshot : Snapshot} {t : Tree}

/-! ## Entities that were there -/

/-- The keys that a record refers to stay. -/
theorem Closes.reference_eq {r : Record EntityId} (hcloses : heap.Closes r)
    (h : heap'.Extends heap) {i : EntityId} (hi : Value.one (some i) ∈ r.values) :
    heap'.reference i = heap.reference i := by
  have hlt : i < heap.size := hcloses i (Record.mem_related.2 ⟨_, hi, .inl rfl⟩)
  rw [reference, reference, h.read_eq hlt]

theorem Extends.diff_eq (h : heap'.Extends heap) (hheap : heap.WellFormed) (hid : id < heap.size)
    (hcloses : heap.Closes snapshot) : heap'.diff id snapshot = heap.diff id snapshot :=
  diff_congr (h.schema?_eq hid) (h.read_eq hid)
    (fun _ hread _ hi => ((hheap _ _ (record?_of_read hread)).2).reference_eq h hi)
    fun _ hi => hcloses.reference_eq h hi

/-! ## Entities that were just stored -/

/-- All that a stored record is related to has a key to refer to. -/
theorem Stores.refers {r : Record EntityId} (h : heap.Stores first t id)
    (hread : heap.read id = .ok r) : Record.Refers heap.reference r.values := by
  obtain ⟨r', hread', -, -, hvalues⟩ := h.exists_read
  obtain rfl : r' = r := Except.ok.inj (hread'.symm.trans hread)
  intro i hi
  obtain ⟨v, -, hrel⟩ := hvalues.exists_left hi
  obtain ⟨t', -, hstores⟩ := hrel.related.exists_left List.mem_cons_self
  obtain ⟨child, hchild, -⟩ := hstores.exists_read
  exact ⟨_, Result.map_eq_ok.2 ⟨child, hchild, rfl⟩⟩

theorem Stores.collection_eq (h : heap.Stores first t id) :
    heap.collection id = t.record.schema.collection := by
  obtain ⟨r, hread, hschema, -⟩ := h.exists_read
  rw [collection, schema?_of_read hread, ← hschema]
  rfl

theorem Stores.isOrdinary {r : Record EntityId} (h : heap.Stores first t id)
    (hread : heap.read id = .ok r) (ht : t.record.IsOrdinary) : r.IsOrdinary := by
  obtain ⟨r', hread', -, -, hvalues⟩ := h.exists_read
  obtain rfl : r' = r := Except.ok.inj (hread'.symm.trans hread)
  intro a ha
  obtain ⟨v, hv, hrel⟩ := hvalues.exists_left ha
  cases hrel
  exact ht a (List.of_mem_zip hv).1

/-- **An entity that was just stored has nothing to send.** -/
theorem Stores.pending?_eq_none {tracked : Tracked} (h : heap.Stores first t tracked.entity)
    (ht : t.record.IsOrdinary) (hread : heap.read tracked.entity = .ok tracked.original) :
    tracked.pending? heap = .ok none :=
  Tracked.pending?_of_read hread (h.refers hread) (h.isOrdinary hread ht)

end Heap

namespace Tracked

variable {heap heap' : Heap} {t : Tracked} {ts : List Tracked}

/-- **What waits to be sent stays** when cells are added. -/
theorem Fits.pending?_extends (hheap : heap.WellFormed) (h : t.Fits heap)
    (hextends : heap'.Extends heap) : t.pending? heap' = t.pending? heap :=
  pending?_congr (hextends.schema?_eq h.lt_size) (hextends.diff_eq hheap h.lt_size h.closes)

/-! ## Lists of tracked entities -/

theorem waiting_congr (h : ∀ t ∈ ts, t.pending? heap' = t.pending? heap) :
    waiting heap' ts = waiting heap ts := by
  have hmap : ts.mapM (pending? heap') = ts.mapM (pending? heap) := by
    induction ts with
    | nil => rfl
    | cons t ts ih =>
      rw [List.mapM_cons, List.mapM_cons, h t List.mem_cons_self,
        ih fun t' ht' => h t' (List.mem_cons_of_mem _ ht')]
  rw [waiting, waiting, hmap]

theorem waiting_eq_nil (h : ∀ t ∈ ts, t.pending? heap = .ok none) : waiting heap ts = .ok [] := by
  induction ts with
  | nil => rfl
  | cons t ts ih =>
    rw [waiting_of_none (h t List.mem_cons_self),
      ih fun t' ht' => h t' (List.mem_cons_of_mem _ ht')]

end Tracked

end ItemClient
