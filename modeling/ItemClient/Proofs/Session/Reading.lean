import ItemClient.Proofs.Entity.Stored
import ItemClient.Proofs.Link.Classification
import ItemClient.Proofs.Session.Chronicle
import ItemClient.UnitOfWork.Reading

/-!
# Reads

A read sends a request, makes entities of the rows in the answer, and tracks these with all they
are related to (`Read.run`). Before anything is tracked it has stored the trees of the rows, in
order (`Read.fetch_eq_ok`). What each entity was read from is a part of the answer: a row, or the
value in place of a related record in what another entity was read from (`Heap.ReadFrom`).

**Provenance** (`Heap.ReadFrom.stores`). The entity holds the record that this part describes.
**Tracking** (`Read.Gives.reaches_iff`). The entities that the rows reach are those that were read
from some part. Both go by the steps from row to row: an entity is stored with its relations.
-/

namespace ItemClient

/-! ## What an entity was read from -/

/-- All record types of a collection have names of their own for their members. -/
structure Collection.WellFormed (c : Collection) : Prop where
  schema : c.schema.wires.Nodup
  catalog : c.catalog.WellFormed

namespace Heap

/-- An entity was read from `j`, as a record of type `s`. -/
inductive ReadFrom (heap : Heap) (c : Collection) (rows : List (Json × EntityId)) :
    EntityId → Schema → Json → Prop
  | row {j : Json} {id : EntityId} : (j, id) ∈ rows → ReadFrom heap c rows id c.schema j
  | related {id i : EntityId} {s s' : Schema} {j j' : Json} {r : Record EntityId} {m : Member}
      {w : Value EntityId} {target : String} :
      ReadFrom heap c rows id s j → heap.read id = .ok r → (m, w) ∈ s.members.zip r.values →
      m.type.target? = some target → c.catalog.schema? target = some s' →
      (j', i) ∈ ((s.given? j m.wire).toList.flatMap m.type.standing).zip w.related →
      ReadFrom heap c rows i s' j'

/-- The rows were read and are stored, at new addresses. -/
def StoresRows (heap : Heap) (first : EntityId) (c : Collection)
    (rows : List (Json × EntityId)) : Prop :=
  ∀ p ∈ rows, ∃ t, Tree.ofJson? c.catalog c.schema p.1 = some t ∧ heap.Stores first t p.2

variable {heap : Heap} {first : EntityId} {c : Collection} {rows : List (Json × EntityId)}
  {id i : EntityId} {s : Schema} {j : Json} {t : Tree} {r : Record EntityId}

/-- What the members of a stored record lead to was read from the values in their places. -/
theorem relations_of_decodes (hdecodes : Tree.Decodes c.catalog s j t)
    (hvalues : List.Forall₂ (Value.Rel (heap.Stores first)) t.record.values r.values) :
    List.Forall₂ (fun m w => w.related = [] ∨ ∃ target s', m.type.target? = some target ∧
      c.catalog.schema? target = some s' ∧
        List.Forall₂ (fun j' i => ∃ t', Tree.ofRelation? c.catalog s' j' = some t' ∧
          heap.Stores first t' i)
        ((s.given? j m.wire).toList.flatMap m.type.standing) w.related)
      s.members r.values := by
  refine (hdecodes.values.comp hvalues).imp fun m w hm => ?_
  obtain ⟨v, hv, hrel⟩ := hm
  rcases (Tree.readGiven?_eq_some hv).2 with hnone | ⟨target, s', htarget, hs', hread⟩
  · have hrelated := hrel.related
    rw [hnone] at hrelated
    exact .inl (List.forall₂_nil_left_iff.1 hrelated)
  · exact .inr ⟨target, s', htarget, hs', hread.comp hrel.related⟩

/-- **An entity holds what it was read from.** -/
theorem ReadFrom.stores (hc : c.WellFormed) (hrows : heap.StoresRows first c rows)
    (h : heap.ReadFrom c rows id s j) :
    ∃ t, Tree.Decodes c.catalog s j t ∧ heap.Stores first t id := by
  induction h with
  | row hmem =>
    obtain ⟨t, ht, hstores⟩ := hrows _ hmem
    exact ⟨t, Tree.decodes_of_ofJson? hc.schema ht, hstores⟩
  | @related id i s s' j j' r m w target _ hread hm htarget hs' hi ih =>
    obtain ⟨t, hdecodes, hstores⟩ := ih
    obtain ⟨r', hread', -, -, hvalues⟩ := hstores.exists_read
    obtain rfl : r' = r := Except.ok.inj (hread'.symm.trans hread)
    rcases List.forall₂_zip (relations_of_decodes hdecodes hvalues) hm with
      hnone | ⟨target', s'', htarget', hs'', hread⟩
    · rw [hnone, List.zip_nil_right] at hi
      cases hi
    · obtain rfl : target' = target := Option.some.inj (htarget'.symm.trans htarget)
      obtain rfl : s'' = s' := Option.some.inj (hs''.symm.trans hs')
      obtain ⟨t', ht', hstores'⟩ := List.forall₂_zip hread hi
      exact ⟨t', Tree.decodes_of_ofRelation? (hc.catalog.wires hs'') ht', hstores'⟩

/-- What an entity that was read is related to was read as well. -/
theorem ReadFrom.exists_of_related (hc : c.WellFormed) (hrows : heap.StoresRows first c rows)
    (h : heap.ReadFrom c rows id s j) (hread : heap.read id = .ok r) (hi : i ∈ r.related) :
    ∃ s' j', heap.ReadFrom c rows i s' j' := by
  obtain ⟨t, hdecodes, hstores⟩ := h.stores hc hrows
  obtain ⟨r', hread', -, -, hvalues⟩ := hstores.exists_read
  obtain rfl : r' = r := Except.ok.inj (hread'.symm.trans hread)
  obtain ⟨w, hw, hi⟩ := Record.mem_related_iff.1 hi
  obtain ⟨m, hm, hleads⟩ := (relations_of_decodes hdecodes hvalues).exists_left hw
  rcases hleads with hnone | ⟨target, s', htarget, hs', hall⟩
  · rw [hnone] at hi
    cases hi
  · obtain ⟨j', hj', -⟩ := hall.exists_left hi
    exact ⟨s', j', h.related hread hm htarget hs' hj'⟩

/-- **What the rows reach is what was read.** -/
theorem reaches_iff_readFrom (hc : c.WellFormed) (hrows : heap.StoresRows first c rows) :
    heap.Reaches (rows.map Prod.snd) id ↔ ∃ s j, heap.ReadFrom c rows id s j := by
  constructor
  · intro h
    induction h with
    | root hid =>
      obtain ⟨⟨j, i⟩, hmem, rfl⟩ := List.mem_map.1 hid
      exact ⟨_, j, .row hmem⟩
    | related _ hrelated hi ih =>
      obtain ⟨s, j, hfrom⟩ := ih
      obtain ⟨r, hread, rfl⟩ := Result.map_eq_ok.1 hrelated
      exact hfrom.exists_of_related hc hrows hread hi
  · rintro ⟨s, j, h⟩
    induction h with
    | row hmem => exact .root (List.mem_map_of_mem hmem)
    | related _ hread hm _ _ hi ih =>
      refine ih.related (Result.map_eq_ok.2 ⟨_, hread, rfl⟩) ?_
      exact Record.mem_related_iff.2 ⟨_, (List.of_mem_zip hm).2, (List.of_mem_zip hi).2⟩

end Heap

/-! ## Reads -/

/-- What a read asks for. -/
inductive Read where
  /-- The row of a key. -/
  | row (c : Collection) (id : String) (params : ReadParams)
  /-- All rows that a query matches. -/
  | all (q : Query)
  /-- The first row that a query matches. -/
  | first (q : Query)

/-- Another result of an operation that goes well. -/
def Outcome.map {ω α β : Type} (f : α → β) (o : Outcome ω α) : Outcome ω β :=
  { o with result := o.result.map f }

/-- Others may change live entities while a request is under way, but not otherwise than by the
program that holds them. -/
def Gateway.OrderlyReads {σ : Type} (g : Gateway σ) : Prop :=
  ∀ (r : Request) (world : World σ), world.heap.Changes (g.send r world).2.heap

theorem UnitOfWork.map_track {σ α β : Type} (u : UnitOfWork) (roots : List EntityId) (a : α)
    (f : α → β) (world : World σ) :
    (u.track roots a world).map f = u.track roots (f a) world := by
  unfold track
  split <;> rfl

namespace Read

variable {σ : Type}

/-- The collection that is read. -/
def collection : Read → Collection
  | row c _ _ => c
  | all q | first q => q.collection

/-- Make a read: the entities of the rows. -/
def run (u : UnitOfWork) (g : Gateway σ) (world : World σ) :
    Read → Outcome (World σ) (List EntityId)
  | row c id params => (u.load c g id params world).map ([·])
  | all q => u.toList q g world
  | first q => (u.first q g world).map ([·])

/-- The request of a read. -/
def request : Read → Result Request
  | row c id params => .ok (c.rowRequest id params)
  | all q => q.params.map q.collection.rowsRequest
  | first q => q.params.map fun params => q.collection.rowsRequest { params with limit := some 1 }

/-- The data of the answer to a read. -/
def answer (g : Gateway σ) (world : World σ) (read : Read) : Result Json :=
  read.request.bind fun r => (g.send r world).1.bind Envelope.unwrap

/-- The rows in the data of an answer, when it is of the form that a read asks for. -/
def items? : Read → Json → Option (List Json)
  | row _ _ _, data => some [data]
  | all _, .array items | first _, .array items => some items
  | _, _ => none

/-- Of rows in order, `trees` are those that a read gives and `rest` those that it leaves: one is
given where the first was asked for, and else none is left. -/
def Wants (read : Read) (trees rest : List Tree) : Prop :=
  match read with
  | first _ => trees.length = 1
  | _ => rest = []

/-- The rows in the data that a read gives entities for. -/
def rows : Read → Json → List Json
  | row _ _ _, data => [data]
  | all _, .array items => items
  | first _, .array items => items.take 1
  | _, _ => []

theorem array_of_items? {read : Read} {q : Query} {data : Json} {items : List Json}
    (hread : read = all q ∨ read = first q) (h : read.items? data = some items) :
    data = .array items := by
  rcases hread with rfl | rfl <;> cases data <;> cases h <;> rfl

/-- What a read does before anything is tracked. -/
def fetch (g : Gateway σ) (world : World σ) : Read → Result (List EntityId) × World σ
  | row c id params => ((c.fetch g id params world).1.map ([·]), (c.fetch g id params world).2)
  | all q =>
      match q.params with
      | .error e => (.error e, world)
      | .ok params => q.collection.fetchMany g params world
  | first q =>
      match q.params with
      | .error e => (.error e, world)
      | .ok params =>
          match q.collection.fetchMany g { params with limit := some 1 } world with
          | (.ok (entity :: _), world) => (.ok [entity], world)
          | (.ok [], world) => (.error (.emptyResult q.collection.name), world)
          | (.error e, world) => (.error e, world)

/-- A read tracks what it fetched. -/
theorem run_eq (u : UnitOfWork) (g : Gateway σ) (world : World σ) (read : Read) :
    read.run u g world =
      match read.fetch g world with
      | (.ok entities, world) => u.track entities entities world
      | (.error e, world) => u.failed e world := by
  cases read with
  | row c id params =>
    rw [run, fetch, UnitOfWork.load]
    rcases c.fetch g id params world with ⟨_ | entity, sent⟩
    · rfl
    · exact UnitOfWork.map_track ..
  | all q =>
    rw [run, fetch, UnitOfWork.toList]
    cases q.params <;> rfl
  | first q =>
    rw [run, fetch, UnitOfWork.first]
    cases q.params with
    | error e => rfl
    | ok params =>
      dsimp only
      rcases q.collection.fetchMany g { params with limit := some 1 } world with
        ⟨_ | _ | ⟨entity, more⟩, sent⟩
      · rfl
      · rfl
      · exact UnitOfWork.map_track ..

end Read

/-! ## What is sent -/

section Sent

variable {σ α : Type} {g : Gateway σ} {world : World σ} {u : UnitOfWork} {read : Read}
  {r : Request} {e : Error}

theorem UnitOfWork.world_track (u : UnitOfWork) (roots : List EntityId) (a : α) (world : World σ) :
    (u.track roots a world).world = world := by
  unfold track
  split <;> rfl

theorem Collection.snd_read (g : Gateway σ) (read? : Json → Option α) (r : Request)
    (world : World σ) : (Collection.read g read? r world).2 = (g.send r world).2 := by
  unfold Collection.read
  rcases g.send r world with ⟨_ | response, sent⟩ <;> rfl

theorem Collection.far_fetch (c : Collection) (g : Gateway σ) (id : String) (params : ReadParams)
    (world : World σ) :
    (c.fetch g id params world).2.far = (g.send (c.rowRequest id params) world).2.far := by
  rw [← Collection.snd_read g c.readRow?, fetch]
  rcases Collection.read g c.readRow? (c.rowRequest id params) world with ⟨_ | t, sent⟩ <;> rfl

theorem Collection.far_fetchMany (c : Collection) (g : Gateway σ) (params : ReadParams)
    (world : World σ) :
    (c.fetchMany g params world).2.far = (g.send (c.rowsRequest params) world).2.far := by
  rw [← Collection.snd_read g c.readRows?, fetchMany]
  rcases Collection.read g c.readRows? (c.rowsRequest params) world with ⟨_ | ts, sent⟩ <;> rfl

/-- A filter that does not compile is the only reason for which a read has no request. -/
theorem Read.compile_of_request_eq_error (h : read.request = .error e) :
    ∃ q, (read = .all q ∨ read = .first q) ∧ Filter.compile q.expressions = .error e := by
  have hcompile : ∀ {q : Query}, q.params = .error e → Filter.compile q.expressions = .error e := by
    intro q hq
    rcases Result.bind_eq_error.1 hq with hfilter | ⟨f, -, hf⟩
    · exact hfilter
    · cases hf
  cases read with
  | row c id params => cases h
  | all q => exact ⟨q, .inl rfl, hcompile (Result.map_eq_error.1 h)⟩
  | first q => exact ⟨q, .inr rfl, hcompile (Result.map_eq_error.1 h)⟩

namespace Read

/-- Without a request nothing is done. -/
theorem run_of_request_error (h : read.request = .error e) :
    read.run u g world = u.failed e world := by
  have hfetch : read.fetch g world = (.error e, world) := by
    cases read with
    | row c id params => cases h
    | all q => rw [fetch, Result.map_eq_error.1 h]
    | first q => rw [fetch, Result.map_eq_error.1 h]
  rw [run_eq, hfetch]

/-- Nothing but the request touches the far end. -/
theorem far_run (h : read.request = .ok r) :
    (read.run u g world).world.far = (g.send r world).2.far := by
  have hfetch : (read.fetch g world).2.far = (g.send r world).2.far := by
    cases read with
    | row c id params =>
      cases h
      exact c.far_fetch g id params world
    | all q =>
      obtain ⟨params, hparams, rfl⟩ := Result.map_eq_ok.1 h
      rw [fetch, hparams]
      exact q.collection.far_fetchMany g params world
    | first q =>
      obtain ⟨params, hparams, rfl⟩ := Result.map_eq_ok.1 h
      rw [fetch, hparams, ← q.collection.far_fetchMany]
      dsimp only
      split <;> simp_all
  rw [run_eq, ← hfetch]
  split
  · rename_i entities sent hsent
    rw [UnitOfWork.world_track, hsent]
  · rename_i e sent hsent
    rw [UnitOfWork.failed, hsent]

/-- A read that is not answered fails for that reason. -/
theorem run_of_send_error (h : read.request = .ok r) (hsend : (g.send r world).1 = .error e) :
    read.run u g world = u.failed e (g.send r world).2 := by
  have hread : ∀ {α : Type} (read? : Json → Option α),
      Collection.read g read? r world = (.error e, (g.send r world).2) := by
    intro α read?
    unfold Collection.read
    rcases hanswer : g.send r world with ⟨_ | response, sent⟩
    · rw [hanswer] at hsend
      cases hsend
      rfl
    · rw [hanswer] at hsend
      cases hsend
  have hfetch : read.fetch g world = (.error e, (g.send r world).2) := by
    cases read with
    | row c id params =>
      cases h
      rw [fetch, Collection.fetch, hread]
      rfl
    | all q =>
      obtain ⟨params, hparams, rfl⟩ := Result.map_eq_ok.1 h
      rw [fetch, hparams]
      dsimp only
      rw [Collection.fetchMany, hread]
    | first q =>
      obtain ⟨params, hparams, rfl⟩ := Result.map_eq_ok.1 h
      rw [fetch, hparams]
      dsimp only
      rw [Collection.fetchMany, hread]
  rw [run_eq, hfetch]

end Read

end Sent

/-! ## What is fetched -/

section Fetched

variable {σ : Type} {u : UnitOfWork} {g : Gateway σ} {world world' : World σ}
  {entities : List EntityId} {c : Collection}

/-- The answer to a request has data of which rows were stored. -/
structure Collection.Fetched (c : Collection) (g : Gateway σ) (world : World σ) (r : Request)
    (data : Json) (heap : Heap) (rows : List (Json × EntityId)) : Prop where
  answer : (g.send r world).1.bind Envelope.unwrap = .ok data
  changes : g.OrderlyReads → c.WellFormed → world.heap.Changes heap
  stores : g.OrderlyReads → heap.StoresRows world.heap.size c rows

theorem Collection.readRows?_eq_some {data : Json} {ts : List Tree} :
    c.readRows? data = some ts ↔ ∃ items, data = .array items ∧
      List.Forall₂ (fun j t => Tree.ofJson? c.catalog c.schema j = some t) items ts := by
  cases data with
  | array items => simp [Collection.readRows?, Collection.readRow?, Optional.mapM_eq_some]
  | _ => simp [Collection.readRows?]

theorem Collection.read_eq_ok {α : Type} {read? : Json → Option α} {r : Request} {a : α} :
    Collection.read g read? r world = (.ok a, world') ↔
      (∃ data, (g.send r world).1.bind Envelope.unwrap = .ok data ∧ read? data = some a) ∧
        world' = (g.send r world).2 := by
  unfold Collection.read
  rcases g.send r world with ⟨_ | response, sent⟩
  · simp [Except.bind]
  · rw [Prod.mk.injEq, eq_comm (b := world')]
    exact and_congr_left' Envelope.decode_eq_ok

/-- A world in which trees were stored. -/
def World.store (world : World σ) (ts : List Tree) : World σ :=
  { world with heap := (world.heap.addTrees ts).1 }

/-- One row is fetched: it is read as a tree, which is stored. -/
theorem Collection.fetch_eq_ok {id : String} {params : ReadParams} {entity : EntityId} :
    c.fetch g id params world = (.ok entity, world') ↔
      ∃ data t, (g.send (c.rowRequest id params) world).1.bind Envelope.unwrap = .ok data ∧
        Tree.ofJson? c.catalog c.schema data = some t ∧
        [entity] = ((g.send (c.rowRequest id params) world).2.heap.addTrees [t]).2 ∧
        world' = (g.send (c.rowRequest id params) world).2.store [t] := by
  unfold Collection.fetch
  constructor
  · intro h
    rcases hread : Collection.read g c.readRow? (c.rowRequest id params) world with ⟨_ | t, sent⟩
    · simp [hread] at h
    · simp only [hread, Prod.mk.injEq, Except.ok.injEq] at h
      obtain ⟨rfl, rfl⟩ := h
      obtain ⟨⟨data, hanswer, ht⟩, rfl⟩ := Collection.read_eq_ok.1 hread
      exact ⟨data, t, hanswer, ht, rfl, rfl⟩
  · rintro ⟨data, t, hanswer, ht, hentity, rfl⟩
    have hrow : c.readRow? data = some t := ht
    rw [Collection.read_eq_ok.2 ⟨⟨data, hanswer, hrow⟩, rfl⟩]
    exact congrArg (fun entity => (Except.ok entity, _)) (List.cons.inj hentity).1.symm

/-- Several rows are fetched: they are read as trees, which are stored in turn. -/
theorem Collection.fetchMany_eq_ok {params : ReadParams} :
    c.fetchMany g params world = (.ok entities, world') ↔
      ∃ items ts, (g.send (c.rowsRequest params) world).1.bind Envelope.unwrap =
          .ok (.array items) ∧
        List.Forall₂ (fun j t => Tree.ofJson? c.catalog c.schema j = some t) items ts ∧
        entities = ((g.send (c.rowsRequest params) world).2.heap.addTrees ts).2 ∧
        world' = (g.send (c.rowsRequest params) world).2.store ts := by
  unfold Collection.fetchMany
  constructor
  · intro h
    rcases hread : Collection.read g c.readRows? (c.rowsRequest params) world with ⟨_ | ts, sent⟩
    · simp [hread] at h
    · simp only [hread, Prod.mk.injEq, Except.ok.injEq] at h
      obtain ⟨rfl, rfl⟩ := h
      obtain ⟨⟨data, hanswer, hts⟩, rfl⟩ := Collection.read_eq_ok.1 hread
      obtain ⟨items, rfl, hitems⟩ := readRows?_eq_some.1 hts
      exact ⟨items, ts, hanswer, hitems, rfl, rfl⟩
  · rintro ⟨items, ts, hanswer, hts, rfl, rfl⟩
    rw [Collection.read_eq_ok.2 ⟨⟨_, hanswer, readRows?_eq_some.2 ⟨items, rfl, hts⟩⟩, rfl⟩]
    rfl

/-- The rows of an answer were read as `trees`, which are wanted, and `rest`, and were all stored,
those that are wanted as `entities`. -/
structure Read.Stores (read : Read) (g : Gateway σ) (world : World σ) (r : Request) (data : Json)
    (trees rest : List Tree) (world' : World σ) (entities : List EntityId) : Prop where
  request : read.request = .ok r
  answer : (g.send r world).1.bind Envelope.unwrap = .ok data
  decoded : ∃ items, read.items? data = some items ∧ List.Forall₂ (fun j t =>
    Tree.ofJson? read.collection.catalog read.collection.schema j = some t) items (trees ++ rest)
  wants : read.Wants trees rest
  entities : entities = ((g.send r world).2.heap.addTrees trees).2
  world : world' = (g.send r world).2.store (trees ++ rest)

/-- Without a request nothing is stored. -/
theorem Read.not_stores {read : Read} {e : Error} (h : read.request = .error e) :
    ¬ ∃ r data trees rest, read.Stores g world r data trees rest world' entities := by
  rintro ⟨r, data, trees, rest, hstores⟩
  cases h.symm.trans hstores.request

namespace Read

theorem fetch_row_iff {id : String} {params : ReadParams} :
    (row c id params).fetch g world = (.ok entities, world') ↔
      ∃ r data trees rest, (row c id params).Stores g world r data trees rest world' entities := by
  rw [fetch, Prod.mk.injEq, Result.map_eq_ok]
  constructor
  · rintro ⟨⟨entity, hentity, rfl⟩, hworld⟩
    obtain ⟨data, t, hanswer, ht, hentity, hworld⟩ :=
      Collection.fetch_eq_ok.1 (Prod.ext hentity hworld)
    exact ⟨_, data, [t], [], rfl, hanswer, ⟨_, rfl, .cons ht .nil⟩, rfl, hentity, hworld⟩
  · rintro ⟨r, data, trees, rest, hrequest, hanswer, ⟨items, hitems, hts⟩, hwants, rfl, rfl⟩
    cases hrequest
    cases hitems
    cases hwants
    rw [List.append_nil] at hts ⊢
    cases hts with
    | cons ht hts =>
      cases hts
      have hfetch := Collection.fetch_eq_ok.2 ⟨data, _, hanswer, ht, rfl, rfl⟩
      exact ⟨⟨_, congrArg Prod.fst hfetch, rfl⟩, congrArg Prod.snd hfetch⟩

variable {q : Query} {params : ReadParams}

theorem fetch_all_iff (hparams : q.params = .ok params) :
    (all q).fetch g world = (.ok entities, world') ↔
      ∃ r data trees rest, (all q).Stores g world r data trees rest world' entities := by
  have hrequest : (all q).request = .ok (q.collection.rowsRequest params) := by
    rw [request, hparams]
    rfl
  rw [fetch, hparams]
  constructor
  · intro h
    obtain ⟨items, ts, hanswer, hts, hentities, hworld⟩ := Collection.fetchMany_eq_ok.1 h
    rw [← List.append_nil ts] at hts hworld
    exact ⟨_, .array items, ts, [], hrequest, hanswer, ⟨items, rfl, hts⟩, rfl, hentities, hworld⟩
  · rintro ⟨r, data, trees, rest, hr, hanswer, ⟨items, hitems, hts⟩, hwants, rfl, rfl⟩
    cases hrequest.symm.trans hr
    cases hwants
    obtain rfl := array_of_items? (.inl rfl) hitems
    rw [List.append_nil] at hts ⊢
    exact Collection.fetchMany_eq_ok.2 ⟨items, trees, hanswer, hts, rfl, rfl⟩

theorem fetch_first_iff (hparams : q.params = .ok params) :
    (first q).fetch g world = (.ok entities, world') ↔
      ∃ r data trees rest, (first q).Stores g world r data trees rest world' entities := by
  have hrequest : (first q).request =
      .ok (q.collection.rowsRequest { params with limit := some 1 }) := by
    rw [request, hparams]
    rfl
  rw [fetch, hparams]
  dsimp only
  constructor
  · intro h
    split at h
    · rename_i entity more sent hfetch
      cases h
      obtain ⟨items, ts, hanswer, hts, hentities, hworld⟩ := Collection.fetchMany_eq_ok.1 hfetch
      cases ts with
      | nil => exact absurd hentities (List.cons_ne_nil _ _)
      | cons t ts =>
        -- Of the rows that came although one was asked for only the first is given.
        have hentity : [entity] = [_] := congrArg (· :: []) (List.cons.inj hentities).1
        exact ⟨_, .array items, [t], ts, hrequest, hanswer, ⟨items, rfl, hts⟩, rfl, hentity, hworld⟩
    · cases h
    · cases h
  · rintro ⟨r, data, trees, rest, hr, hanswer, ⟨items, hitems, hts⟩, hwants, rfl, rfl⟩
    cases hrequest.symm.trans hr
    obtain ⟨t, rfl⟩ := List.length_eq_one_iff.1 hwants
    obtain rfl := array_of_items? (.inr rfl) hitems
    have hfetch := Collection.fetchMany_eq_ok.2 ⟨items, t :: rest, hanswer, hts, rfl, rfl⟩
    rw [hfetch]
    rfl

/-- **What a read fetches** is stored. -/
theorem fetch_eq_ok {read : Read} : read.fetch g world = (.ok entities, world') ↔
    ∃ r data trees rest, read.Stores g world r data trees rest world' entities := by
  cases read with
  | row c id params => exact fetch_row_iff
  | all q =>
    cases hparams : q.params with
    | error e =>
      have hrequest : (all q).request = .error e := by rw [request, hparams]; rfl
      rw [fetch, hparams]
      exact iff_of_false (by simp) (not_stores hrequest)
    | ok params => exact fetch_all_iff hparams
  | first q =>
    cases hparams : q.params with
    | error e =>
      have hrequest : (first q).request = .error e := by rw [request, hparams]; rfl
      rw [fetch, hparams]
      exact iff_of_false (by simp) (not_stores hrequest)
    | ok params => exact fetch_first_iff hparams

end Read

namespace Read.Stores

variable {read : Read} {r : Request} {data : Json} {trees rest : List Tree}

/-- The rows that are given are read in order. -/
theorem rows (h : read.Stores g world r data trees rest world' entities) :
    List.Forall₂ (fun j t => Tree.ofJson? read.collection.catalog read.collection.schema j = some t)
      (read.rows data) trees := by
  obtain ⟨items, hitems, hts⟩ := h.decoded
  have hwants := h.wants
  cases read with
  | row c id params =>
    cases hitems
    cases hwants
    rwa [List.append_nil] at hts
  | all q =>
    obtain rfl := array_of_items? (.inl rfl) hitems
    cases hwants
    rwa [List.append_nil] at hts
  | first q =>
    obtain rfl := array_of_items? (.inr rfl) hitems
    obtain ⟨t, rfl⟩ := List.length_eq_one_iff.1 hwants
    exact List.forall₂_take 1 hts

/-- Nothing but cells came to the entities that were there with the answer. -/
theorem extends_addTrees (h : read.Stores g world r data trees rest world' entities) :
    world'.heap.Extends ((g.send r world).2.heap.addTrees trees).1 := by
  rw [h.world, World.store, Heap.addTrees_append_fst]
  exact Heap.addTrees_extends _ rest

/-- The trees are stored at the entities. -/
theorem stores (h : read.Stores g world r data trees rest world' entities) {first : EntityId}
    (hfirst : first ≤ (g.send r world).2.heap.size) :
    List.Forall₂ (world'.heap.Stores first) trees entities := by
  rw [h.entities]
  exact Heap.stores_addTrees _ trees hfirst h.extends_addTrees

theorem changes (h : read.Stores g world r data trees rest world' entities) (hg : g.OrderlyReads)
    (hc : read.collection.WellFormed) : world.heap.Changes world'.heap := by
  rw [h.world]
  refine (hg r world).trans (Heap.changes_addTrees _ _ fun t ht => ?_)
  obtain ⟨items, -, hts⟩ := h.decoded
  obtain ⟨j, -, hj⟩ := hts.exists_left ht
  exact (Tree.decodes_of_ofJson? hc.schema hj).wellFormed hc.catalog hc.schema

end Read.Stores

/-! ## What is tracked -/

theorem UnitOfWork.track_eq_ok {α : Type} {roots : List EntityId} {a b : α}
    (h : (u.track roots a world).result = .ok b) :
    b = a ∧ (u.track roots a world).world = world ∧ ∃ n notices,
      u.registerAll world.heap roots = (.ok n, (u.track roots a world).tracker, notices) := by
  unfold UnitOfWork.track at h ⊢
  split at h
  · rename_i n tracker notices hregister
    cases h
    simp [hregister]
  · cases h

theorem UnitOfWork.track_of_registerAll {α : Type} {roots : List EntityId} {a : α} {n : Nat}
    (h : (u.registerAll world.heap roots).1 = .ok n) : (u.track roots a world).result = .ok a := by
  unfold UnitOfWork.track
  split
  · rfl
  · rename_i e tracker notices hregister
    cases h.symm.trans (congrArg Prod.fst hregister)

/-- **A read that goes well** has stored rows, and then tracked them. -/
theorem Read.stores_of_run {read : Read} (h : (read.run u g world).result = .ok entities) :
    ∃ r data trees rest n notices,
      read.Stores g world r data trees rest (read.run u g world).world entities ∧
      u.registerAll (read.run u g world).world.heap entities =
        (.ok n, (read.run u g world).tracker, notices) := by
  rw [run_eq] at h ⊢
  rcases hfetch : read.fetch g world with ⟨_ | fetched, sent⟩
  · simp [hfetch, UnitOfWork.failed] at h
  · simp only [hfetch] at h ⊢
    obtain ⟨rfl, hworld, n, notices, hregister⟩ := UnitOfWork.track_eq_ok h
    obtain ⟨r, data, trees, rest, hstores⟩ := fetch_eq_ok.1 hfetch
    rw [hworld]
    exact ⟨r, data, trees, rest, n, notices, hstores, hregister⟩

/-- A read that goes well has fetched rows. -/
theorem Read.fetched_of_run {read : Read} (h : (read.run u g world).result = .ok entities) :
    ∃ r data n notices, read.request = .ok r ∧
      read.collection.Fetched g world r data (read.run u g world).world.heap
        ((read.rows data).zip entities) ∧
      (read.rows data).length = entities.length ∧
      u.registerAll (read.run u g world).world.heap entities =
        (.ok n, (read.run u g world).tracker, notices) := by
  obtain ⟨r, data, trees, rest, n, notices, hstores, hregister⟩ := Read.stores_of_run h
  have hlength := hstores.rows.length_eq.trans (hstores.stores (Nat.zero_le _)).length_eq
  refine ⟨r, data, n, notices, hstores.request, ⟨hstores.answer, hstores.changes, ?_⟩, hlength,
    hregister⟩
  intro hg p hp
  have hentities := hstores.stores (hg r world).keeps.size
  exact List.forall₂_zip (hstores.rows.comp hentities) hp

end Fetched

end ItemClient
