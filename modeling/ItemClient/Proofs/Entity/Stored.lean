import ItemClient.Proofs.Entity.Change
import ItemClient.Proofs.Record.Decoding

/-!
# Trees in the heap

What `Heap.addTree` leaves behind. A tree is stored at an address (`Heap.Stores`) when the record
there is the one at the root, with relations that lead to where the related trees are stored, all
of them at new addresses.

Storing a tree only adds cells (`Heap.addTree_extends`), stores it at the address that it gives
(`Heap.stores_addTree`), and consists of changes of the program when the tree is well formed
(`Heap.changes_addTree`). A tree is stored from its leaves up, so all three go by the four cases of
the recursion.
-/

namespace ItemClient

/-- Values of one shape, with relations that lead to related things. -/
inductive Value.Rel {α β : Type} (R : α → β → Prop) : Value α → Value β → Prop
  | scalar (a : Scalar) : Rel R (.scalar a) (.scalar a)
  | nowhere : Rel R (.one none) (.one none)
  | one {a : α} {b : β} : R a b → Rel R (.one (some a)) (.one (some b))
  | many {as : List α} {bs : List β} : List.Forall₂ R as bs → Rel R (.many as) (.many bs)

namespace Value.Rel

variable {α β : Type} {R : α → β → Prop} {v : Value α} {w : Value β}

theorem related (h : Rel R v w) : List.Forall₂ R v.related w.related := by
  cases h with
  | scalar a => exact .nil
  | nowhere => exact .nil
  | one hab => exact .cons hab .nil
  | many hall => exact hall

theorem holds {type : MemberType} (h : Rel R v w) (hv : type.Holds v) : type.Holds w := by
  cases h <;> cases type <;> trivial

end Value.Rel

namespace Heap

/-- A tree is stored at an address, and nothing of it at an address before `first`. -/
inductive Stores (heap : Heap) (first : EntityId) : Tree → EntityId → Prop
  | node {s : Schema} {key : Key} {vs : List (Value Tree)} {ws : List (Value EntityId)}
      {id : EntityId} : first ≤ id → heap.read id = .ok ⟨s, key, ws⟩ →
      List.Forall₂ (Value.Rel (Stores heap first)) vs ws → Stores heap first (.node s key vs) id

variable {heap heap' : Heap} {first id : EntityId} {t : Tree}

theorem Stores.le (h : heap.Stores first t id) : first ≤ id := by
  cases h
  assumption

theorem Stores.exists_read (h : heap.Stores first t id) : ∃ r, heap.read id = .ok r ∧
    r.schema = t.record.schema ∧ r.key = t.record.key ∧
      List.Forall₂ (Value.Rel (heap.Stores first)) t.record.values r.values := by
  cases h with
  | node _ hread hvalues => exact ⟨_, hread, rfl, rfl, hvalues⟩

theorem Stores.lt_size (h : heap.Stores first t id) : id < heap.size := by
  obtain ⟨r, hread, -⟩ := h.exists_read
  exact lt_size_of_record? (record?_of_read hread)

/-! ## Only cells are added -/

/-- The cells of `heap` are still there in `heap'`, which may have more. -/
def Extends (heap' heap : Heap) : Prop := heap.cells <+: heap'.cells

theorem Extends.refl (heap : Heap) : heap.Extends heap := List.prefix_rfl

theorem Extends.trans {heap'' : Heap} (h' : heap''.Extends heap') (h : heap'.Extends heap) :
    heap''.Extends heap :=
  List.IsPrefix.trans h h'

theorem Extends.size_le (h : heap'.Extends heap) : heap.size ≤ heap'.size :=
  List.IsPrefix.length_le h

theorem add_extends (heap : Heap) (r : Record EntityId) : (heap.add r).1.Extends heap :=
  List.prefix_append _ _

theorem Extends.cell (h : heap'.Extends heap) (hid : id < heap.size) :
    heap'.cells[id]? = heap.cells[id]? := by
  obtain ⟨more, hmore⟩ := h
  rw [← hmore, List.getElem?_append_left hid]

theorem Extends.read_eq (h : heap'.Extends heap) (hid : id < heap.size) :
    heap'.read id = heap.read id := by
  rw [Heap.read, Heap.read, h.cell hid]

theorem Extends.schema?_eq (h : heap'.Extends heap) (hid : id < heap.size) :
    heap'.schema? id = heap.schema? id := by
  rw [Heap.schema?, Heap.schema?, h.cell hid]

theorem Extends.read {r : Record EntityId} (h : heap'.Extends heap) (hread : heap.read id = .ok r) :
    heap'.read id = .ok r := by
  rw [h.read_eq (lt_size_of_record? (record?_of_read hread)), hread]

theorem read_add (heap : Heap) (r : Record EntityId) : (heap.add r).1.read heap.size = .ok r := by
  simp [add, Heap.read, size]

mutual

theorem addTree_extends (heap : Heap) (t : Tree) : (heap.addTree t).1.Extends heap :=
  match t with
  | .node s key vs => by
    rw [addTree]
    exact (add_extends _ _).trans (addValues_extends heap vs)

theorem addValues_extends (heap : Heap) (vs : List (Value Tree)) :
    (heap.addValues vs).1.Extends heap :=
  match vs with
  | [] => .refl heap
  | v :: vs => by
    rw [addValues]
    exact (addValues_extends _ vs).trans (addValue_extends heap v)

theorem addValue_extends (heap : Heap) (v : Value Tree) : (heap.addValue v).1.Extends heap :=
  match v with
  | .scalar _ => .refl heap
  | .one none => .refl heap
  | .one (some t) => by
    rw [addValue]
    exact addTree_extends heap t
  | .many ts => by
    rw [addValue]
    exact addTrees_extends heap ts

theorem addTrees_extends (heap : Heap) (ts : List Tree) : (heap.addTrees ts).1.Extends heap :=
  match ts with
  | [] => .refl heap
  | t :: ts => by
    rw [addTrees]
    exact (addTrees_extends _ ts).trans (addTree_extends heap t)

end

/-- Trees are stored in turn. -/
theorem addTrees_append_fst (heap : Heap) (ts us : List Tree) :
    (heap.addTrees (ts ++ us)).1 = ((heap.addTrees ts).1.addTrees us).1 := by
  induction ts generalizing heap with
  | nil => rfl
  | cons t ts ih => exact ih _

/-! ## What was stored is there

Also in every heap that has more cells: what is stored later adds to them. -/

mutual

theorem stores_addTree (heap : Heap) (t : Tree) (hfirst : first ≤ heap.size)
    (h : heap'.Extends (heap.addTree t).1) : heap'.Stores first t (heap.addTree t).2 :=
  match t with
  | .node s key vs => by
    have hle : first ≤ (heap.addValues vs).1.size :=
      hfirst.trans (addValues_extends heap vs).size_le
    rw [addTree] at h ⊢
    exact .node hle (h.read (read_add _ _))
      (stores_addValues heap vs hfirst (h.trans (add_extends _ _)))

theorem stores_addValues (heap : Heap) (vs : List (Value Tree)) (hfirst : first ≤ heap.size)
    (h : heap'.Extends (heap.addValues vs).1) :
    List.Forall₂ (Value.Rel (heap'.Stores first)) vs (heap.addValues vs).2 :=
  match vs with
  | [] => .nil
  | v :: vs => by
    have hle := hfirst.trans (addValue_extends heap v).size_le
    rw [addValues] at h ⊢
    exact .cons (stores_addValue heap v hfirst (h.trans (addValues_extends _ vs)))
      (stores_addValues _ vs hle h)

theorem stores_addValue (heap : Heap) (v : Value Tree) (hfirst : first ≤ heap.size)
    (h : heap'.Extends (heap.addValue v).1) :
    Value.Rel (heap'.Stores first) v (heap.addValue v).2 :=
  match v with
  | .scalar a => .scalar a
  | .one none => .nowhere
  | .one (some t) => by
    rw [addValue] at h ⊢
    exact .one (stores_addTree heap t hfirst h)
  | .many ts => by
    rw [addValue] at h ⊢
    exact .many (stores_addTrees heap ts hfirst h)

theorem stores_addTrees (heap : Heap) (ts : List Tree) (hfirst : first ≤ heap.size)
    (h : heap'.Extends (heap.addTrees ts).1) :
    List.Forall₂ (heap'.Stores first) ts (heap.addTrees ts).2 :=
  match ts with
  | [] => .nil
  | t :: ts => by
    have hle := hfirst.trans (addTree_extends heap t).size_le
    rw [addTrees] at h ⊢
    exact .cons (stores_addTree heap t hfirst (h.trans (addTrees_extends _ ts)))
      (stores_addTrees _ ts hle h)

end

/-! ## Storing is a change of the program -/

/-- A record of a well-formed tree, with relations to where the related trees are stored, can be
made. -/
theorem change_add {ws : List (Value EntityId)} (ht : t.WellFormed)
    (h : List.Forall₂ (Value.Rel (heap.Stores first)) t.record.values ws) :
    heap.Change (heap.add ⟨t.record.schema, t.record.key, ws⟩).1 := by
  obtain ⟨hwf, -⟩ := ht
  refine .create ⟨hwf.wires, ?_⟩ ?_
  · have hholds := hwf.values.comp h
    exact hholds.imp fun m w hw => by
      obtain ⟨v, hv, hrel⟩ := hw
      exact hrel.holds hv
  · intro i hi
    obtain ⟨w, hw, hi⟩ := Record.mem_related_iff.1 hi
    obtain ⟨v, -, hrel⟩ := h.exists_left hw
    obtain ⟨t', -, hstores⟩ := hrel.related.exists_left hi
    exact hstores.lt_size

mutual

theorem changes_addTree (heap : Heap) (t : Tree) (ht : t.WellFormed) :
    heap.Changes (heap.addTree t).1 :=
  match t with
  | .node s key vs => by
    have hrelated : ∀ v ∈ vs, ∀ t' ∈ v.related, t'.WellFormed := by
      intro v hv t' ht'
      cases ht with
      | node _ hsub => exact hsub t' (Record.mem_related_iff.2 ⟨v, hv, ht'⟩)
    have hvalues := stores_addValues heap vs le_rfl (.refl _)
    rw [addTree]
    exact (changes_addValues heap vs hrelated).tail (change_add ht hvalues)

theorem changes_addValues (heap : Heap) (vs : List (Value Tree))
    (hvs : ∀ v ∈ vs, ∀ t ∈ v.related, t.WellFormed) : heap.Changes (heap.addValues vs).1 :=
  match vs with
  | [] => .refl
  | v :: vs => by
    rw [addValues]
    exact (changes_addValue heap v (hvs v List.mem_cons_self)).trans
      (changes_addValues _ vs fun v' hv' => hvs v' (List.mem_cons_of_mem _ hv'))

theorem changes_addValue (heap : Heap) (v : Value Tree) (hv : ∀ t ∈ v.related, t.WellFormed) :
    heap.Changes (heap.addValue v).1 :=
  match v with
  | .scalar _ => .refl
  | .one none => .refl
  | .one (some t) => by
    rw [addValue]
    exact changes_addTree heap t (hv t (by simp [Value.related]))
  | .many ts => by
    rw [addValue]
    exact changes_addTrees heap ts hv

theorem changes_addTrees (heap : Heap) (ts : List Tree) (hts : ∀ t ∈ ts, t.WellFormed) :
    heap.Changes (heap.addTrees ts).1 :=
  match ts with
  | [] => .refl
  | t :: ts => by
    rw [addTrees]
    exact (changes_addTree heap t (hts t List.mem_cons_self)).trans
      (changes_addTrees _ ts fun t' ht' => hts t' (List.mem_cons_of_mem _ ht'))

end

end Heap

end ItemClient
