import ItemClient.Models
import ItemClient.Proofs.Entity.Patch
import ItemClient.Proofs.Entity.Unfolding
import ItemClient.Proofs.Record.Text

/-!
# Entities that are read back

Reading undoes writing. An entity that reaches no circle is written as its tree, and the text is
read as the tree again, straight or as a related record. Stored in any heap, at addresses of its
own, it is written as the same text, has the same identity and the same reference, and shows the
same to whoever follows relations (`Heap.Restores`). So a text that was read as a record is in
normal form once it is written: bare keys have become objects by then, and defaults are spelled out.

What is asked of the entity is what a text can hold (`Tree.IsLegible`): members of the declared
kinds, finite doubles that the reader finds again, nothing present that is written as `null`, and
no deeper nesting than the reader takes. Of what was read, only the doubles and the nesting are in
question.

Main result: `Schema.rereads`.
-/

namespace ItemClient

/-! ## The same entity at two addresses -/

namespace Heap

/-- An entity is there again, in the same heap or another one: it unfolds to the same tree and is
written as the same text, its identity and its reference are the same, and following relations
shows the same collections and identities, in order. -/
structure Restores (heap heap' : Heap) (id id' : EntityId) : Prop where
  tree : heap'.tree? id' = heap.tree? id
  text : heap'.toJson id' = heap.toJson id
  identity : heap'.identity id' = heap.identity id
  reference : heap'.reference id' = heap.reference id
  alike : heap.Alike heap' id id'

variable {heap heap' : Heap} {id id' : EntityId} {t : Tree}

theorem toJson_of_tree? (h : heap.tree? id = some t) : heap.toJson id = .ok t.toJson := by
  rw [toJson, h]

/-- The key of an entity is that of its tree. -/
theorem identity_of_tree? (h : heap.tree? id = some t) :
    heap.identity id = .ok t.record.key.identity := by
  obtain ⟨r, hread, -, hkey, -⟩ := (tree?_eq_some_iff.1 h).exists_read
  exact Result.map_eq_ok.2 ⟨r, hread, congrArg Key.identity hkey⟩

theorem reference_of_tree? (h : heap.tree? id = some t) :
    heap.reference id = .ok t.record.key.toJson := by
  obtain ⟨r, hread, -, hkey, -⟩ := (tree?_eq_some_iff.1 h).exists_read
  exact Result.map_eq_ok.2 ⟨r, hread, congrArg Key.toJson hkey⟩

/-- Where one tree is unfolded from two addresses, the entity is the same. -/
theorem restores_of_tree? (h : heap.tree? id = some t) (h' : heap'.tree? id' = some t) :
    heap.Restores heap' id id' where
  tree := h'.trans h.symm
  text := (toJson_of_tree? h').trans (toJson_of_tree? h).symm
  identity := (identity_of_tree? h').trans (identity_of_tree? h).symm
  reference := (reference_of_tree? h').trans (reference_of_tree? h).symm
  alike := (tree?_eq_some_iff.1 h).alike (tree?_eq_some_iff.1 h')

end Heap

/-! ## Reading what was written -/

/-- The text of a record is read as the record, straight and as a related record. -/
structure Tree.IsReread (catalog : Catalog) (s : Schema) (t : Tree) : Prop where
  record : read? catalog s (Text.symbols t.toJson.text) = some t
  entity : readRelation? catalog s (Text.symbols t.toJson.text) = some t

/-- Reading undoes writing for the records of a type. -/
structure Schema.Rereads (catalog : Catalog) (s : Schema) : Prop where
  /-- An entity is written when it reaches no circle. -/
  written (heap : Heap) (id : EntityId) : heap.IsAcyclic id →
    ∃ t, heap.tree? id = some t ∧ heap.toJson id = .ok t.toJson
  /-- What was written is read as the entity again, wherever it is stored. -/
  reread (heap : Heap) (id : EntityId) (t : Tree) : heap.tree? id = some t →
    t.IsLegible catalog s →
      t.IsReread catalog s ∧ ∀ heap' : Heap,
        heap.Restores (heap'.addTree t).1 id (heap'.addTree t).2
  /-- What was read from any text, and can be read again, is written in normal form. -/
  normal (input : List Text.Symbol) (t : Tree) : t.IsRead catalog s input →
    t.toJson.DoublesReadBack → t.toJson.depth ≤ Json.maxDepth →
      t.IsReread catalog s ∧ ∀ heap : Heap,
        (heap.addTree t).1.toJson (heap.addTree t).2 = .ok t.toJson

/-! The relations of the bundled record types stay among them. -/

theorem Catalog.isClosed_bundled : Catalog.bundled.IsClosed := by
  unfold IsClosed
  decide

theorem Catalog.wellFormed_bundled : Catalog.bundled.WellFormed := by
  unfold WellFormed
  decide

variable {catalog : Catalog} {s : Schema}

/-- **Reading undoes writing,** for the record types of a catalog whose relations stay in it. -/
theorem Schema.rereads (hclosed : catalog.IsClosed) (hcatalog : catalog.WellFormed)
    (hs : s ∈ catalog) : s.Rereads catalog := by
  have hreread : ∀ {t : Tree}, t.IsLegible catalog s → t.IsReread catalog s := by
    intro t h
    exact ⟨h.read?_text hclosed hcatalog hs, h.readRelation?_text hclosed hcatalog hs⟩
  have hstored : ∀ (heap : Heap) (t : Tree),
      (heap.addTree t).1.tree? (heap.addTree t).2 = some t := by
    intro heap t
    exact Heap.tree?_addTree heap t (.refl _)
  constructor
  · intro heap id h
    obtain ⟨t, ht⟩ := Heap.exists_tree?_iff.2 h
    exact ⟨t, ht, Heap.toJson_of_tree? ht⟩
  · intro heap id t ht hlegible
    exact ⟨hreread hlegible, fun heap' => Heap.restores_of_tree? ht (hstored heap' t)⟩
  · intro input t h hdoubles hdepth
    exact ⟨hreread (h.isLegible hcatalog hs hdoubles hdepth),
      fun heap => Heap.toJson_of_tree? (hstored heap t)⟩

/-! A shelf is given with a weight that is no integer. What stands beside it and its book are given
by their keys, what is below it as an object, and its label is not given. -/

/-- The text that the shelf is read from. -/
def givenShelf : String :=
  "\x7b\"slug\":\"b\",\"weight\":12.5,\"beside\":\"a\",\"below\":\x7b\"slug\":\"a\"\x7d," ++
    "\"books\":[\"c\"]\x7d"

/-- The text of a shelf of which only the key is known. -/
def bareShelf (slug : String) : String :=
  "\x7b\"slug\":\"" ++ slug ++ "\",\"weight\":0.0,\"label\":null," ++
    "\"beside\":null,\"below\":null,\"books\":[]\x7d"

/-- The text that the shelf is written as. -/
def writtenShelf : String :=
  "\x7b\"slug\":\"b\",\"weight\":12.5,\"label\":null,\"beside\":" ++ bareShelf "a" ++
    ",\"below\":" ++ bareShelf "a" ++ ",\"books\":[" ++ bareShelf "c" ++ "]\x7d"

/-- Every relation is written as an object, and from then on nothing changes. The bundled record
types can be read back as well. -/
theorem rereads_shelf :
    (∀ s ∈ Catalog.bundled, s.Rereads Catalog.bundled) ∧ Catalog.IsClosed [Heap.shelf] ∧ Catalog.WellFormed [Heap.shelf] ∧
      Heap.shelf.Rereads [Heap.shelf] ∧
      ∃ (t : Tree) (heap : Heap) (id : EntityId),
        Tree.read? [Heap.shelf] Heap.shelf (Text.symbols givenShelf) = some t ∧
        t.IsLegible [Heap.shelf] Heap.shelf ∧ t.toJson.text = writtenShelf ∧
        heap.IsAcyclic id ∧ heap.toJson id = .ok t.toJson ∧ t.IsReread [Heap.shelf] Heap.shelf := by
  have hclosed : Catalog.IsClosed [Heap.shelf] := by
    unfold Catalog.IsClosed
    decide
  have hcatalog : Catalog.WellFormed [Heap.shelf] := by
    unfold Catalog.WellFormed
    decide
  have hrereads := Schema.rereads hclosed hcatalog List.mem_cons_self
  obtain ⟨t, ht⟩ : ∃ t, Tree.read? [Heap.shelf] Heap.shelf (Text.symbols givenShelf) = some t :=
    Option.isSome_iff_exists.1 (by decide +kernel)
  have hall : (Tree.read? [Heap.shelf] Heap.shelf (Text.symbols givenShelf)).all (fun t =>
      t.toJson.DoublesReadBack ∧ t.toJson.depth ≤ Json.maxDepth ∧ t.toJson.text = writtenShelf) =
        true := by decide +kernel
  rw [ht, Option.all_some] at hall
  obtain ⟨hdoubles, hdepth, htext⟩ := of_decide_eq_true hall
  have hlegible := Tree.IsRead.isLegible hcatalog List.mem_cons_self (.inl ht) hdoubles hdepth
  have htree := Heap.tree?_addTree {} t (.refl _)
  exact ⟨fun s hs => Schema.rereads Catalog.isClosed_bundled Catalog.wellFormed_bundled hs, hclosed,
    hcatalog, hrereads, t, _, _, ht, hlegible, htext,
    Heap.exists_tree?_iff.1 ⟨t, htree⟩, Heap.toJson_of_tree? htree,
    (hrereads.reread _ _ t htree hlegible).1⟩

end ItemClient
