import ItemClient.Proofs.Commit.Frame
import ItemClient.Proofs.Entity.Layout
import ItemClient.Proofs.Registration.Refusal
import ItemClient.Proofs.Session.Reading
import ItemClient.Proofs.Session.Script

/-!
# Reads are atomic, complete and clean

**Atomic** (`Read.Atomic`). A read that fails leaves the unit of work as it was and tells the
observer nothing, whatever failed. When a filter does not compile nothing is sent either.

**When a read goes well** (`Read.Admits`). Just when the data of the answer has the form that was
asked for, all its rows can be read, and the collections of all records in them have accessors.

**Complete and clean** (`Read.Completes`). Then it gives an entity for each row, in order. All
records of the rows, however deep, are stored as entities of their own, and just these are tracked
in addition, each once. Rows that are alike are not merged. What waits to be sent stays as it was:
nothing was done to the entities that were there, and an entity that was just read is as its
snapshot says.

The trees of the rows are stored one after the other (`Heap.lays_addTrees`), so what the rows reach
is a range of addresses, all of them new, with one address for each record.

Main result: `Read.atomic_and_complete`.
-/

namespace ItemClient

/-- An operation that fails has done nothing to the unit of work and told the observer nothing. -/
def Outcome.SparesOnError {ω α : Type} (o : Outcome ω α) (u : UnitOfWork) : Prop :=
  ∀ e, o.result = .error e → o.tracker = u ∧ o.notices = []

namespace Read

variable {σ : Type}

/-- The live entities when the answer to a read is there: those before it, unless others changed
them meanwhile. -/
def arrival (g : Gateway σ) (world : World σ) (read : Read) : Heap :=
  match read.request with
  | .ok r => (g.send r world).2.heap
  | .error _ => world.heap

/-- A read that fails has done nothing. -/
structure Atomic (read : Read) (u : UnitOfWork) (g : Gateway σ) (world : World σ) : Prop where
  spares : (read.run u g world).SparesOnError u
  /-- A filter that does not compile is noticed before anything is sent. -/
  unsent : ∀ q e, read = .all q ∨ read = .first q → Filter.compile q.expressions = .error e →
    read.run u g world = { result := .error e, tracker := u, world }

/-- What a read needs of the data of the answer and of the accessors of the unit of work. -/
structure Admits (read : Read) (u : UnitOfWork) (data : Json) : Prop where
  /-- The data is of the form that is asked for, and all rows in it describe records. -/
  decodes : ∃ items, read.items? data = some items ∧ ∀ j ∈ items, ∃ t,
    Tree.ofJson? read.collection.catalog read.collection.schema j = some t
  /-- There is a row when the first one is asked for. -/
  present : ∀ q, read = .first q → read.rows data ≠ []
  /-- The records of the rows that are given, at whatever depth, have accessors. -/
  owned : ∀ j ∈ read.rows data, ∀ t,
    Tree.ofJson? read.collection.catalog read.collection.schema j = some t →
      ∀ node ∈ t.nodes, u.accessors.contains node.record.schema.collection = true

/-- A read gave `entities` for the rows in `data`, which were read as `trees`, and tracked `new`. -/
structure Completes (read : Read) (u : UnitOfWork) (g : Gateway σ) (world : World σ)
    (entities : List EntityId) (data : Json) (trees : List Tree) (new : List Tracked) : Prop where
  answer : read.answer g world = .ok data
  /-- The rows were read in order, … -/
  decoded : List.Forall₂ (fun j t =>
    Tree.ofJson? read.collection.catalog read.collection.schema j = some t) (read.rows data) trees
  /-- … each is stored at the entity that is given for it, … -/
  rows : List.Forall₂ ((read.run u g world).world.heap.Stores (read.arrival g world).size)
    trees entities
  distinct : entities.Nodup
  /-- … and every record of them is stored, each at an address of its own. -/
  nodes : List.Forall₂ ((read.run u g world).world.heap.Stores (read.arrival g world).size)
    (trees.flatMap Tree.nodes)
    (List.range' (read.arrival g world).size (trees.flatMap Tree.nodes).length)
  /-- Tracked in addition are the entities that were given, and all that they reach, … -/
  records : (read.run u g world).tracker.records = u.records ++ new
  reached : ∀ id, id ∈ new.map Tracked.entity ↔ (read.run u g world).world.heap.Reaches entities id
  /-- … which are the entities at these addresses and no others, … -/
  tracked : (new.map Tracked.entity).Perm
    (List.range' (read.arrival g world).size (trees.flatMap Tree.nodes).length)
  /-- … none of which was there before. -/
  fresh : ∀ t ∈ new, world.heap.size ≤ t.entity
  once : (read.run u g world).tracker.entities.Nodup
  count : (read.run u g world).tracker.size = u.size + (trees.flatMap Tree.nodes).length
  /-- A new snapshot is the record as it was read, … -/
  originals : ∀ t ∈ new, (read.run u g world).world.heap.read t.entity = .ok t.original
  /-- … so no new entity has anything to send. -/
  settled : ∀ t ∈ new, t.pending? (read.run u g world).world.heap = .ok none
  /-- What waits to be sent is what waited when the answer came, … -/
  pending : (read.run u g world).tracker.pending (read.run u g world).world.heap =
    u.pending (read.arrival g world)
  /-- … and so before the read, unless others edited entities meanwhile. -/
  clean : read.arrival g world = world.heap →
    (read.run u g world).tracker.pending (read.run u g world).world.heap = u.pending world.heap

end Read

/-! ## Reads that fail -/

section Atomic

variable {σ α : Type}

theorem UnitOfWork.sparesOnError_failed (u : UnitOfWork) (e : Error) (world : World σ) :
    (u.failed e world : Outcome (World σ) α).SparesOnError u := fun _ _ => ⟨rfl, rfl⟩

theorem UnitOfWork.sparesOnError_track (u : UnitOfWork) (roots : List EntityId) (a : α)
    (world : World σ) : (u.track roots a world).SparesOnError u := by
  intro e he
  unfold track registerAll at he ⊢
  cases hfound : u.discoveries world.heap roots with
  | ok found => simp [hfound] at he
  | error e' => exact ⟨rfl, rfl⟩

/-- **Reads are atomic.** -/
theorem Read.atomic (read : Read) (u : UnitOfWork) (g : Gateway σ) (world : World σ) :
    read.Atomic u g world where
  spares := by
    rw [run_eq]
    split
    · exact u.sparesOnError_track _ _ _
    · exact u.sparesOnError_failed _ _
  unsent := by
    intro q e hread hfilter
    have hparams : q.params = .error e := Result.bind_eq_error.2 (.inl hfilter)
    have hfetch : read.fetch g world = (.error e, world) := by
      rcases hread with rfl | rfl <;> rw [fetch, hparams]
    rw [run_eq, hfetch]
    rfl

end Atomic

/-! ## Reads that go well -/

theorem AccessorTable.contains_iff {table : AccessorTable} {collection : String} :
    table.contains collection = true ↔ table.get? collection ≠ none :=
  Option.isSome_iff_ne_none

namespace UnitOfWork.Grows

variable {u u' : UnitOfWork} {heap : Heap} {roots : List EntityId} {new : List Tracked}

/-- When the roots reach just `ids`, none of them tracked before, these are tracked in addition. -/
theorem perm_of_reaches {ids : List EntityId} (h : Grows heap roots u u' new) (hids : ids.Nodup)
    (hreaches : ∀ id, heap.Reaches roots id ↔ id ∈ ids) (hnew : ∀ id ∈ ids, id ∉ u.entities) :
    (new.map Tracked.entity).Perm ids := by
  refine (List.perm_ext_iff_of_nodup h.nodup hids).2 fun id => ?_
  rw [h.order, List.mem_filter, Heap.mem_breadthFirst_iff, hreaches, Bool.not_eq_true',
    ← Bool.not_eq_true, isTracked_iff]
  exact and_iff_left_of_imp (hnew id)

/-- New entities with nothing to send leave what is pending as it is. -/
theorem pending_eq {later : Heap} (h : Grows heap roots u u' new)
    (hnew : ∀ t ∈ new, t.pending? later = .ok none) : u'.pending later = u.pending later := by
  have hnone : UnitOfWork.pending { u with records := new } later = .ok [] :=
    Tracked.waiting_eq_nil hnew
  rw [h.pending, hnone]
  cases u.pending later with
  | error e => rfl
  | ok ps => exact congrArg Except.ok (List.append_nil ps)

end UnitOfWork.Grows

/-- What is stored after an answer arrived is not tracked yet. -/
theorem Session.Reachable.new_of_arrived {σ : Type} {s : Session} {g : Gateway σ} {far : σ}
    (h : s.Reachable) (hg : g.OrderlyReads) (r : Request) {n : Nat} :
    ∀ id ∈ List.range' (g.send r (s.world far)).2.heap.size n, id ∉ s.tracker.entities := by
  intro id hid hmem
  have hlt : id < s.heap.size := h.inv.lt_size hmem
  have hle : s.heap.size ≤ (g.send r (s.world far)).2.heap.size := (hg r (s.world far)).keeps.size
  exact Nat.not_lt.2 (List.mem_range'_1.1 hid).1 (hlt.trans_le hle)

namespace Read

variable {σ : Type} {read : Read} {g : Gateway σ} {world world' : World σ} {r : Request}
  {data : Json} {trees rest : List Tree} {entities : List EntityId} {id : EntityId}

theorem arrival_eq (h : read.request = .ok r) : read.arrival g world = (g.send r world).2.heap := by
  rw [arrival, h]

namespace Stores

/-- The records of the rows lie one after the other. -/
theorem lays (h : read.Stores g world r data trees rest world' entities) :
    Heap.Lays world'.heap (g.send r world).2.heap.size (g.send r world).2.heap
      ((g.send r world).2.heap.addTrees trees).1 (trees.flatMap Tree.nodes) entities := by
  rw [← Tree.nodesOfTrees_eq, h.entities]
  exact Heap.lays_addTrees _ trees le_rfl h.extends_addTrees

/-- What the rows reach are their records. -/
theorem reaches_iff (h : read.Stores g world r data trees rest world' entities) :
    world'.heap.Reaches entities id ↔
      id ∈ List.range' (g.send r world).2.heap.size (trees.flatMap Tree.nodes).length := by
  rw [List.mem_range'_1, ← h.lays.size, h.entities]
  exact Heap.reaches_addTrees_iff _ trees h.extends_addTrees

theorem isOrdinary (h : read.Stores g world r data trees rest world' entities) :
    ∀ t ∈ trees.flatMap Tree.nodes, t.record.IsOrdinary := by
  intro t ht
  obtain ⟨root, hroot, ht⟩ := List.mem_flatMap.1 ht
  obtain ⟨j, -, hj⟩ := h.rows.exists_left hroot
  exact Tree.isOrdinary_of_ofJson? hj t ht

theorem extends_arrived (h : read.Stores g world r data trees rest world' entities) :
    world'.heap.Extends (g.send r world).2.heap :=
  h.extends_addTrees.trans (Heap.addTrees_extends _ trees)

/-- What is stored is registered when all records of the rows have accessors. -/
theorem registers {u : UnitOfWork} (h : read.Stores g world r data trees rest world' entities)
    (hall : ∀ node ∈ trees.flatMap Tree.nodes,
      u.accessors.contains node.record.schema.collection = true) :
    ∃ n, (u.registerAll world'.heap entities).1 = .ok n := by
  rw [UnitOfWork.exists_registerAll_eq_ok_iff]
  intro id hid
  obtain ⟨node, hnode, hstored⟩ := h.lays.stores.exists_left (h.reaches_iff.1 hid)
  by_contra hrefusal
  rcases UnitOfWork.refusal?_ne_none.1 hrefusal with ⟨-, hget⟩ | hpoisoned
  · rw [hstored.collection_eq] at hget
    exact AccessorTable.contains_iff.1 (hall node (List.of_mem_zip hnode).1) hget
  · obtain ⟨live, hread, -⟩ := hstored.exists_read
    cases hread.symm.trans hpoisoned

/-- Where none of it was tracked before they are all needed. -/
theorem registers_iff {u : UnitOfWork}
    (h : read.Stores g world r data trees rest world' entities)
    (hnew : ∀ id ∈ List.range' (g.send r world).2.heap.size (trees.flatMap Tree.nodes).length,
      id ∉ u.entities) :
    (∃ n, (u.registerAll world'.heap entities).1 = .ok n) ↔
      ∀ node ∈ trees.flatMap Tree.nodes,
        u.accessors.contains node.record.schema.collection = true := by
  refine ⟨fun hok node hnode => ?_, h.registers⟩
  rw [UnitOfWork.exists_registerAll_eq_ok_iff] at hok
  obtain ⟨id, hid, hstored⟩ := h.lays.stores.exists_right hnode
  have hrange := (List.of_mem_zip hid).2
  have hrefusal := hok id (h.reaches_iff.2 hrange)
  rw [← hstored.collection_eq, AccessorTable.contains_iff]
  exact fun hget => UnitOfWork.refusal?_ne_none.2 (.inl ⟨hnew id hrange, hget⟩) hrefusal

end Stores

/-- Rows that are admitted are read. -/
theorem Admits.exists_trees {u : UnitOfWork} (h : read.Admits u data) :
    ∃ trees rest, read.Wants trees rest ∧ ∃ items, read.items? data = some items ∧
      List.Forall₂ (fun j t =>
        Tree.ofJson? read.collection.catalog read.collection.schema j = some t)
        items (trees ++ rest) := by
  obtain ⟨items, hitems, hall⟩ := h.decodes
  obtain ⟨ts, hts⟩ := List.Forall₂.exists_of_forall hall
  cases read with
  | row c id params =>
    exact ⟨ts, [], rfl, items, hitems, (List.append_nil ts).symm ▸ hts⟩
  | all q => exact ⟨ts, [], rfl, items, hitems, (List.append_nil ts).symm ▸ hts⟩
  | first q =>
    obtain rfl := array_of_items? (.inr rfl) hitems
    have hrows : items.take 1 ≠ [] := h.present q rfl
    cases hts with
    | nil => exact absurd rfl hrows
    | @cons j t items ts ht hts => exact ⟨[t], ts, rfl, _, hitems, .cons ht hts⟩

variable {s : Session} {far : σ}

/-- **A read goes well** exactly when the answer admits it. -/
theorem exists_result_eq_ok_iff (h : s.Reachable) (hg : g.OrderlyReads) :
    (∃ entities, (read.run s.tracker g (s.world far)).result = .ok entities) ↔
      ∃ data, read.answer g (s.world far) = .ok data ∧ read.Admits s.tracker data := by
  constructor
  · rintro ⟨entities, hok⟩
    obtain ⟨r, data, trees, rest, n, notices, hstores, hregister⟩ := stores_of_run hok
    have howned := (hstores.registers_iff (h.new_of_arrived hg r)).1
      ⟨n, congrArg Prod.fst hregister⟩
    refine ⟨data, ?_, ?_⟩
    · rw [answer, hstores.request]
      exact hstores.answer
    · constructor
      case decodes =>
        obtain ⟨items, hitems, hts⟩ := hstores.decoded
        refine ⟨items, hitems, fun j hj => ?_⟩
        obtain ⟨t, -, ht⟩ := hts.exists_right hj
        exact ⟨t, ht⟩
      case present =>
        rintro q rfl hnil
        have hone : trees.length = 1 := hstores.wants
        have hlength := hstores.rows.length_eq
        rw [hnil, hone] at hlength
        cases hlength
      case owned =>
        intro j hj t ht node hnode
        obtain ⟨t', hmem, ht'⟩ := hstores.rows.exists_right hj
        obtain rfl : t = t' := Option.some.inj (ht.symm.trans ht')
        exact howned node (List.mem_flatMap.2 ⟨t, (List.of_mem_zip hmem).2, hnode⟩)
  · rintro ⟨data, hanswer, hadmits⟩
    obtain ⟨r, hrequest, hdata⟩ := Result.bind_eq_ok.1 hanswer
    obtain ⟨trees, rest, hwants, hdecoded⟩ := hadmits.exists_trees
    have hstores : read.Stores g (s.world far) r data trees rest _ _ :=
      ⟨hrequest, hdata, hdecoded, hwants, rfl, rfl⟩
    have howned : ∀ node ∈ trees.flatMap Tree.nodes,
        s.tracker.accessors.contains node.record.schema.collection = true := by
      intro node hnode
      obtain ⟨t, ht, hnode⟩ := List.mem_flatMap.1 hnode
      obtain ⟨j, hmem, hj⟩ := hstores.rows.exists_left ht
      exact hadmits.owned j (List.of_mem_zip hmem).1 t hj node hnode
    obtain ⟨n, hn⟩ := (hstores.registers_iff (h.new_of_arrived hg r)).2 howned
    refine ⟨((g.send r (s.world far)).2.heap.addTrees trees).2, ?_⟩
    rw [run_eq, fetch_eq_ok.2 ⟨r, data, trees, rest, hstores⟩]
    exact UnitOfWork.track_of_registerAll hn

/-- **Reads are complete and clean.** -/
theorem exists_completes (h : s.Reachable) (hg : g.OrderlyReads)
    (hok : (read.run s.tracker g (s.world far)).result = .ok entities) :
    ∃ data trees new, read.Completes s.tracker g (s.world far) entities data trees new := by
  obtain ⟨r, data, trees, rest, n, notices, hstores, hregister⟩ := stores_of_run hok
  obtain ⟨new, hgrows, -⟩ := UnitOfWork.registerAll_grows hregister
  have harrival : read.arrival g (s.world far) = (g.send r (s.world far)).2.heap :=
    arrival_eq hstores.request
  set o := read.run s.tracker g (s.world far)
  set arrived := (g.send r (s.world far)).2.heap
  set nodes := trees.flatMap Tree.nodes
  have hchanges : s.heap.Changes arrived := hg r (s.world far)
  have inv : Session.Inv { s with heap := arrived } := (h.changes hchanges).inv
  have hnew : ∀ id ∈ List.range' arrived.size nodes.length, id ∉ s.tracker.entities :=
    h.new_of_arrived hg r
  have hperm : (new.map Tracked.entity).Perm (List.range' arrived.size nodes.length) :=
    hgrows.perm_of_reaches List.nodup_range' (fun _ => hstores.reaches_iff) hnew
  have hrange : ∀ t ∈ new, t.entity ∈ List.range' arrived.size nodes.length := fun t ht =>
    hperm.mem_iff.1 (List.mem_map_of_mem ht)
  have hsettled : ∀ t ∈ new, t.pending? o.world.heap = .ok none := by
    intro t ht
    obtain ⟨node, hnode, hstored⟩ := hstores.lays.stores.exists_left (hrange t ht)
    have hordinary := hstores.isOrdinary node (List.of_mem_zip hnode).1
    exact hstored.pending?_eq_none hordinary (hgrows.originals t ht)
  have hpending : o.tracker.pending o.world.heap = s.tracker.pending arrived := by
    rw [hgrows.pending_eq hsettled]
    exact Tracked.waiting_congr fun t ht =>
      (inv.faithful t ht).fits.pending?_extends inv.heap hstores.extends_arrived
  refine ⟨data, trees, new, ?_⟩
  constructor
  case answer =>
    rw [answer, hstores.request]
    exact hstores.answer
  case decoded => exact hstores.rows
  case rows => exact harrival ▸ hstores.stores le_rfl
  case distinct =>
    rw [hstores.entities]
    exact Heap.nodup_addTrees _ trees
  case nodes => exact harrival ▸ hstores.lays.stores
  case records => exact hgrows.records
  case reached => exact fun id => hperm.mem_iff.trans hstores.reaches_iff.symm
  case tracked => exact harrival ▸ hperm
  case fresh =>
    intro t ht
    exact hchanges.keeps.size.trans (List.mem_range'_1.1 (hrange t ht)).1
  case once =>
    rw [UnitOfWork.entities, hgrows.records, List.map_append]
    exact inv.nodup.append hgrows.nodup fun id hid hmem => hnew id (hperm.mem_iff.1 hmem) hid
  case count =>
    have hlength := hperm.length_eq
    rw [List.length_map, List.length_range'] at hlength
    rw [UnitOfWork.size, hgrows.records, List.length_append, hlength]
    rfl
  case originals => exact hgrows.originals
  case settled => exact hsettled
  case pending => exact harrival ▸ hpending
  case clean =>
    intro hquiet
    rw [hpending, ← harrival, hquiet]

end Read

/-- **Reads are atomic, complete and clean**: whatever unit of work reads, whatever it reads, and
whatever comes back. -/
theorem Read.atomic_and_complete (read : Read) :
    (∀ {σ : Type} (g : Gateway σ) (u : UnitOfWork) (world : World σ), read.Atomic u g world) ∧
    ∀ {σ : Type} (g : Gateway σ) (s : Session) (far : σ), s.Reachable → g.OrderlyReads →
      ((∃ entities, (read.run s.tracker g (s.world far)).result = .ok entities) ↔
        ∃ data, read.answer g (s.world far) = .ok data ∧ read.Admits s.tracker data) ∧
      ∀ entities, (read.run s.tracker g (s.world far)).result = .ok entities →
        ∃ data trees new, read.Completes s.tracker g (s.world far) entities data trees new :=
  ⟨fun g u world => read.atomic u g world, fun _ _ _ h hg =>
    ⟨exists_result_eq_ok_iff h hg, fun _ hok => exists_completes h hg hok⟩⟩

/-! Two tags are tracked, and both were edited. A read of all tags gives one row twice, which refers
to another row by its bare key. -/

namespace Session

/-- One row twice. -/
def repeatedRow : Response :=
  .ofText 200
    "\x7b\"data\":[\x7b\"id\":\"a\",\"of\":\"b\"\x7d,\x7b\"id\":\"a\",\"of\":\"b\"\x7d]\x7d"

/-- A store that gives this answer to every request. -/
def repeating : Gateway Unit where
  send _ world := (.ok repeatedRow, world)
  handOver _ _ _ world := (.ok (), world)

/-- All tags. -/
def allTags : Read := .all { collection := { catalog := [tag], schema := tag } }

theorem run_allTags :
    (allTags.run edited.tracker repeating (edited.world ())).result = .ok [3, 5] :=
  Result.toOption_eq_some.1 (by decide +kernel)

/-- Both rows are tracked, each with an entity of its own for the other row. What waits to be sent
stays. -/
theorem atomic_and_complete_allTags :
    (∃ data trees new,
      allTags.Completes edited.tracker repeating (edited.world ()) [3, 5] data trees new ∧
        new.length = 4) ∧
    (allTags.run edited.tracker repeating (edited.world ())).tracker.pending
        (allTags.run edited.tracker repeating (edited.world ())).world.heap =
      edited.tracker.pending edited.heap := by
  obtain ⟨data, trees, new, hcompletes⟩ := (allTags.atomic_and_complete.2 repeating edited ()
    reachable_edited fun _ _ => .refl).2 [3, 5] run_allTags
  have hsize : (allTags.run edited.tracker repeating (edited.world ())).tracker.size = 6 := by
    decide +kernel
  refine ⟨⟨data, trees, new, hcompletes, ?_⟩, hcompletes.clean rfl⟩
  have hlength := congrArg List.length hcompletes.records
  rw [List.length_append] at hlength
  exact Nat.add_left_cancel (hlength.symm.trans hsize)

end Session

end ItemClient
