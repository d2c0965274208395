import ItemClient.Proofs.Entity.Layout

/-!
# Entities as trees

An entity is written with all it is related to, so first it is unfolded into a tree, no deeper than
the heap is large (`Heap.tree?`). An entity that several relations lead to comes several times.

**Main results.** The tree of an entity is the one that is stored at its address
(`Heap.tree?_eq_some_iff`), and there is one exactly when all that is reached can be read and
nothing reaches itself (`Heap.exists_tree?_iff`). The bound is no restriction: what an entity
reaches is more than what one it is related to reaches, unless they lie on a circle
(`Heap.IsAcyclic.length_lt`), and it is never more than the heap.

Two entities with one tree, be it in two heaps, show the same to whoever follows relations from
them (`Heap.Stores.alike`). Whether two relations lead to one entity is not among that.
-/

namespace ItemClient

/-! ## Values and records in step -/

namespace Value.Rel

variable {α β : Type} {R S : α → β → Prop} {v : Value α} {w : Value β}

theorem imp (h : Rel R v w) (himp : ∀ a ∈ v.related, ∀ b, R a b → S a b) : Rel S v w := by
  cases h with
  | scalar a => exact .scalar a
  | nowhere => exact .nowhere
  | one hab => exact .one (himp _ List.mem_cons_self _ hab)
  | many hall =>
    exact .many (hall.and_mem.imp fun a b hab => himp a hab.1 b hab.2)

theorem exists_of_related (h : ∀ b ∈ w.related, ∃ a, R a b) : ∃ v, Rel R v w := by
  cases w with
  | scalar a => exact ⟨_, .scalar a⟩
  | one related =>
    cases related with
    | none => exact ⟨_, .nowhere⟩
    | some b =>
      obtain ⟨a, hab⟩ := h b List.mem_cons_self
      exact ⟨_, .one hab⟩
  | many bs =>
    obtain ⟨as, hall⟩ := List.Forall₂.exists_of_forall (R := fun b a => R a b) h
    exact ⟨_, .many hall.flip⟩

/-- Relations to one are in step, -/
theorem toOne? {vs : List (Value α)} {ws : List (Value β)} (h : List.Forall₂ (Rel R) vs ws) :
    List.Forall₂ R (vs.filterMap Value.toOne?) (ws.filterMap Value.toOne?) := by
  induction h with
  | nil => exact .nil
  | cons hvw _ ih =>
    cases hvw with
    | one hab => exact .cons hab ih
    | _ => exact ih

/-- and so are relations to many. -/
theorem toMany {vs : List (Value α)} {ws : List (Value β)} (h : List.Forall₂ (Rel R) vs ws) :
    List.Forall₂ R (vs.flatMap Value.toMany) (ws.flatMap Value.toMany) := by
  induction h with
  | nil => exact .nil
  | cons hvw _ ih =>
    cases hvw with
    | many hall => exact List.rel_append hall ih
    | _ => exact ih

end Value.Rel

namespace Record

variable {α β : Type} {R S : α → β → Prop} {r : Record α} {r' : Record β}

theorem rel_imp (h : List.Forall₂ (Value.Rel R) r.values r'.values)
    (himp : ∀ a ∈ r.related, ∀ b, R a b → S a b) :
    List.Forall₂ (Value.Rel S) r.values r'.values :=
  h.and_mem.imp fun v _ hvw => hvw.2.imp fun a ha => himp a (mem_related_iff.2 ⟨v, hvw.1, ha⟩)

theorem rel_related (h : List.Forall₂ (Value.Rel R) r.values r'.values) :
    List.Forall₂ R r.related r'.related :=
  List.rel_append (Value.Rel.toOne? h) (Value.Rel.toMany h)

end Record

namespace Heap

variable {heap heap' : Heap} {first first' id id' child : EntityId} {t t' : Tree} {depth : Nat}

/-! ## What is unfolded is stored -/

theorem unfoldValue_eq_some_iff {f : EntityId → Option Tree} {v : Value Tree} {w : Value EntityId} :
    unfoldValue f w = some v ↔ Value.Rel (fun t i => f i = some t) v w := by
  cases w with
  | scalar a =>
    constructor
    · intro h
      cases h
      exact .scalar a
    · intro h
      cases h
      rfl
  | one related =>
    cases related with
    | none =>
      constructor
      · intro h
        cases h
        exact .nowhere
      · intro h
        cases h
        rfl
    | some i =>
      constructor
      · intro h
        obtain ⟨t, ht, rfl⟩ := Option.map_eq_some_iff.1 h
        exact .one ht
      · intro h
        cases h with
        | one ht => exact Option.map_eq_some_iff.2 ⟨_, ht, rfl⟩
  | many ids =>
    constructor
    · intro h
      obtain ⟨ts, hts, rfl⟩ := Option.map_eq_some_iff.1 h
      exact .many (Optional.mapM_eq_some.1 hts).flip
    · intro h
      cases h with
      | many hall => exact Option.map_eq_some_iff.2 ⟨_, Optional.mapM_eq_some.2 hall.flip, rfl⟩

/-- One level of a tree. -/
theorem unfold_succ_eq_some_iff : heap.unfold (depth + 1) id = some t ↔
    ∃ r, heap.read id = .ok r ∧ r.schema = t.record.schema ∧ r.key = t.record.key ∧
      List.Forall₂ (Value.Rel fun t' i => heap.unfold depth i = some t')
        t.record.values r.values := by
  have hvalues : ∀ {vs : List (Value Tree)} {ws : List (Value EntityId)},
      ws.mapM (unfoldValue (heap.unfold depth)) = some vs ↔
        List.Forall₂ (Value.Rel fun t' i => heap.unfold depth i = some t') vs ws := by
    intro vs ws
    rw [Optional.mapM_eq_some]
    constructor
    · intro h
      exact (h.imp fun _ _ => unfoldValue_eq_some_iff.1).flip
    · intro h
      exact (h.imp fun _ _ => unfoldValue_eq_some_iff.2).flip
  obtain ⟨s, key, vs⟩ := t
  rw [unfold]
  cases hread : heap.read id with
  | error e => simp
  | ok r =>
    constructor
    · intro h
      obtain ⟨ws, hws, heq⟩ := Option.bind_eq_some_iff.1 h
      cases heq
      exact ⟨r, rfl, rfl, rfl, hvalues.1 hws⟩
    · rintro ⟨r', hr', rfl, rfl, hws⟩
      cases hr'
      exact Option.bind_eq_some_iff.2 ⟨_, hvalues.2 hws, rfl⟩

theorem stores_of_unfold (h : heap.unfold depth id = some t) : heap.Stores 0 t id := by
  induction depth generalizing id t with
  | zero => cases h
  | succ depth ih =>
    obtain ⟨r, hread, hschema, hkey, hvalues⟩ := unfold_succ_eq_some_iff.1 h
    obtain ⟨s, key, vs⟩ := t
    obtain ⟨s', key', ws⟩ := r
    obtain rfl : s' = s := hschema
    obtain rfl : key' = key := hkey
    exact .node (Nat.zero_le id) hread (hvalues.imp fun v w hvw => hvw.imp fun _ _ _ hi => ih hi)

/-! ## What is stored is unfolded -/

/-- A stored tree is unfolded to its depth, which is less than its size. -/
theorem Stores.unfold {t : Tree} {id : EntityId} {depth : Nat} (h : heap.Stores first t id)
    (hdepth : sizeOf t ≤ depth) : heap.unfold depth id = some t := by
  cases depth with
  | zero =>
    obtain ⟨s, key, vs⟩ := t
    simp at hdepth
  | succ depth =>
    obtain ⟨r, hread, hschema, hkey, hvalues⟩ := h.exists_read
    apply unfold_succ_eq_some_iff.2
    refine ⟨r, hread, hschema, hkey, Record.rel_imp hvalues ?_⟩
    intro t' ht' i hi
    have hlt : sizeOf t' < sizeOf t := Tree.sizeOf_lt_of_mem_related ht'
    exact hi.unfold (Nat.le_of_lt_succ (hlt.trans_le hdepth))
termination_by sizeOf t
decreasing_by exact hlt

/-- At most one tree is stored at an address. -/
theorem Stores.tree_eq (h : heap.Stores first t id) (h' : heap.Stores first' t' id) : t = t' := by
  have hunfold := h.unfold (Nat.le_max_left (sizeOf t) (sizeOf t'))
  rw [h'.unfold (Nat.le_max_right (sizeOf t) (sizeOf t'))] at hunfold
  exact (Option.some.inj hunfold).symm

/-! ## Nothing stored lies on a circle -/

theorem Stores.exists_related (h : heap.Stores first t id) (hchild : child ∈ heap.relatives id) :
    ∃ t' ∈ t.record.related, heap.Stores first t' child := by
  obtain ⟨r, hread, -, -, hvalues⟩ := h.exists_read
  have hrelated : heap.related id = .ok r.related := Result.map_eq_ok.2 ⟨r, hread, rfl⟩
  rw [relatives_of_related hrelated] at hchild
  obtain ⟨t', hmem, hstores⟩ := (Record.rel_related hvalues).exists_left hchild
  exact ⟨t', (List.of_mem_zip hmem).1, hstores⟩

/-- What a stored tree leads to is stored, as a smaller tree. -/
theorem Stores.exists_of_reaches {i : EntityId} (h : heap.Stores first t id)
    (hi : heap.Reaches (heap.relatives id) i) :
    ∃ t', heap.Stores first t' i ∧ sizeOf t' < sizeOf t := by
  have hsmaller : ∀ {t' : Tree} {i child : EntityId}, heap.Stores first t' i →
      child ∈ heap.relatives i → ∃ t'', heap.Stores first t'' child ∧ sizeOf t'' < sizeOf t' := by
    intro t' i child hstores hchild
    obtain ⟨t'', ht'', hstores''⟩ := hstores.exists_related hchild
    exact ⟨t'', hstores'', Tree.sizeOf_lt_of_mem_related ht''⟩
  induction hi with
  | root hroot => exact hsmaller h hroot
  | related _ hrelated hchild ih =>
    obtain ⟨t', hstores, hlt⟩ := ih
    obtain ⟨t'', hstores', hlt'⟩ := hsmaller hstores (relatives_of_related hrelated ▸ hchild)
    exact ⟨t'', hstores', hlt'.trans hlt⟩

/-- All that an entity reaches can be read, and none of it reaches itself. -/
structure IsAcyclic (heap : Heap) (id : EntityId) : Prop where
  readable : ∀ i, heap.Reaches [id] i → heap.isReadable i = true
  acyclic : ∀ i, heap.Reaches [id] i → ¬ heap.Reaches (heap.relatives i) i

theorem Stores.isAcyclic (h : heap.Stores first t id) : heap.IsAcyclic id := by
  have hroots : ∀ i ∈ [id], ∃ t, heap.Stores first t i := by
    intro i hi
    exact List.mem_singleton.1 hi ▸ ⟨t, h⟩
  constructor
  · intro i hi
    obtain ⟨t', hstores⟩ := hi.exists_stores (.refl heap) hroots
    obtain ⟨r, hread, -⟩ := hstores.exists_read
    exact isReadable_iff.2 ⟨r, hread⟩
  · intro i hi hcircle
    obtain ⟨t', hstores⟩ := hi.exists_stores (.refl heap) hroots
    obtain ⟨t'', hstores', hlt⟩ := hstores.exists_of_reaches hcircle
    rw [hstores.tree_eq hstores'] at hlt
    exact Nat.lt_irrefl _ hlt

/-! ## What lies on no circle is unfolded -/

namespace IsAcyclic

theorem root (h : heap.IsAcyclic id) : ∃ r, heap.read id = .ok r :=
  isReadable_iff.1 (h.readable id (.root List.mem_cons_self))

theorem relative (h : heap.IsAcyclic id) (hchild : child ∈ heap.relatives id) :
    heap.IsAcyclic child := by
  have hreaches : ∀ i, heap.Reaches [child] i → heap.Reaches [id] i := by
    intro i hi
    apply hi.trans
    intro j hj
    rw [List.mem_singleton.1 hj]
    exact Reaches.relative (.root List.mem_cons_self) hchild
  exact ⟨fun i hi => h.readable i (hreaches i hi), fun i hi => h.acyclic i (hreaches i hi)⟩

/-- What a related entity reaches is less: the entity itself is not among it. -/
theorem length_lt (h : heap.IsAcyclic id) (hchild : child ∈ heap.relatives id) :
    (heap.breadthFirst [child]).length < (heap.breadthFirst [id]).length := by
  have hroot : heap.Reaches [id] id := .root List.mem_cons_self
  have hnew : id ∉ heap.breadthFirst [child] := by
    intro hmem
    apply h.acyclic id hroot
    exact (mem_breadthFirst_iff.1 hmem).mono (List.cons_subset.2 ⟨hchild, List.nil_subset _⟩)
  have hsub : id :: heap.breadthFirst [child] ⊆ heap.breadthFirst [id] := by
    intro i hi
    apply mem_breadthFirst_iff.2
    rcases List.mem_cons.1 hi with rfl | hi
    · exact hroot
    · apply (mem_breadthFirst_iff.1 hi).trans
      intro j hj
      rw [List.mem_singleton.1 hj]
      exact hroot.relative hchild
  have hnodup : (id :: heap.breadthFirst [child]).Nodup :=
    List.nodup_cons.2 ⟨hnew, nodup_within heap [child] heap.size⟩
  exact (List.subperm_of_subset hnodup hsub).length_le

theorem length_le (h : heap.IsAcyclic id) : (heap.breadthFirst [id]).length ≤ heap.size :=
  length_le_size (nodup_within heap [id] heap.size) fun i hi =>
    isReadable_iff.1 (h.readable i (mem_breadthFirst_iff.1 hi))

/-- An entity has a tree of a depth of as many entities as it reaches. -/
theorem exists_unfold (h : heap.IsAcyclic id) (hdepth : (heap.breadthFirst [id]).length ≤ depth) :
    ∃ t, heap.unfold depth id = some t := by
  -- A related entity reaches less, so for it a depth of one less is enough.
  induction depth generalizing id with
  | zero =>
    have hmem : id ∈ heap.breadthFirst [id] := mem_breadthFirst_iff.2 (.root List.mem_cons_self)
    exact absurd (List.length_pos_of_mem hmem) (Nat.not_lt.2 hdepth)
  | succ depth ih =>
    obtain ⟨r, hread⟩ := h.root
    have hrelated : heap.related id = .ok r.related := Result.map_eq_ok.2 ⟨r, hread, rfl⟩
    have hchildren : ∀ i ∈ r.related, ∃ t, heap.unfold depth i = some t := by
      intro i hi
      rw [← relatives_of_related hrelated] at hi
      exact ih (h.relative hi) (Nat.le_of_lt_succ ((h.length_lt hi).trans_le hdepth))
    obtain ⟨vs, hvs⟩ : ∃ vs, List.Forall₂ (fun w v =>
        Value.Rel (fun t i => heap.unfold depth i = some t) v w) r.values vs := by
      apply List.Forall₂.exists_of_forall
      intro w hw
      exact Value.Rel.exists_of_related fun i hi =>
        hchildren i (Record.mem_related_iff.2 ⟨w, hw, hi⟩)
    exact ⟨.node r.schema r.key vs, unfold_succ_eq_some_iff.2 ⟨r, hread, rfl, rfl, hvs.flip⟩⟩

end IsAcyclic

/-! ## The tree of an entity -/

/-- **The tree of an entity is the one that is stored at its address.** -/
theorem tree?_eq_some_iff : heap.tree? id = some t ↔ heap.Stores 0 t id := by
  constructor
  · intro h
    exact stores_of_unfold h
  · intro h
    -- There is a tree within the bound, and no other one is stored there.
    obtain ⟨t', ht'⟩ := h.isAcyclic.exists_unfold h.isAcyclic.length_le
    rw [h.tree_eq (stores_of_unfold ht')]
    exact ht'

/-- **An entity has a tree exactly when it reaches no circle** and all it reaches can be read. -/
theorem exists_tree?_iff : (∃ t, heap.tree? id = some t) ↔ heap.IsAcyclic id := by
  constructor
  · rintro ⟨t, ht⟩
    exact (tree?_eq_some_iff.1 ht).isAcyclic
  · intro h
    exact h.exists_unfold h.length_le

/-- What is stored is there, whatever is stored later. -/
theorem tree?_addTree (heap : Heap) (t : Tree) (h : heap'.Extends (heap.addTree t).1) :
    heap'.tree? (heap.addTree t).2 = some t :=
  tree?_eq_some_iff.2 (stores_addTree heap t (Nat.zero_le heap.size) h)

/-! ## Entities that show the same -/

/-- Two entities are of one collection and have one identity, and so have those that they are
related to, in order, and so on. -/
inductive Alike (heap heap' : Heap) : EntityId → EntityId → Prop
  | node {id id' : EntityId} {ids ids' : List EntityId} :
      heap.collection id = heap'.collection id' → heap.identity id = heap'.identity id' →
      heap.related id = .ok ids → heap'.related id' = .ok ids' →
      List.Forall₂ (Alike heap heap') ids ids' → Alike heap heap' id id'

theorem collection_of_read {r : Record EntityId} (h : heap.read id = .ok r) :
    heap.collection id = r.schema.collection := by
  rw [collection, schema?_eq, record?_of_read h]
  rfl

/-- Where one tree is stored twice, the entities show the same. -/
theorem Stores.alike {t : Tree} {id id' : EntityId} (h : heap.Stores first t id)
    (h' : heap'.Stores first' t id') : heap.Alike heap' id id' := by
  obtain ⟨r, hread, hschema, hkey, hvalues⟩ := h.exists_read
  obtain ⟨r', hread', hschema', hkey', hvalues'⟩ := h'.exists_read
  have hidentity : heap.identity id = heap'.identity id' := by
    rw [identity, identity, hread, hread']
    exact congrArg (fun key => Except.ok key.identity) (hkey.trans hkey'.symm)
  have hcollection : heap.collection id = heap'.collection id' := by
    rw [collection_of_read hread, collection_of_read hread', hschema, hschema']
  refine .node hcollection hidentity (Result.map_eq_ok.2 ⟨r, hread, rfl⟩)
    (Result.map_eq_ok.2 ⟨r', hread', rfl⟩) ?_
  apply ((Record.rel_related hvalues).and_mem.flip.comp (Record.rel_related hvalues')).imp
  rintro i i' ⟨t', ⟨ht', hi⟩, hi'⟩
  exact hi.alike hi'
termination_by sizeOf t
decreasing_by exact Tree.sizeOf_lt_of_mem_related ht'

end Heap

end ItemClient
