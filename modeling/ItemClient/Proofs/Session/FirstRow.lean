import ItemClient.Proofs.Entity.Unfolding
import ItemClient.Proofs.Link.Listing
import ItemClient.Proofs.Link.Wrapping
import ItemClient.Proofs.Session.Completeness

/-!
# The first row is the head of one row

A query gives its first row, or all its rows. Asking for the first row is asking for all rows of
the query with a limit of one and taking the head (`Query.TakesHead`): the requests are the same, and
so is what comes of an answer, except that no row is an error. The far end need not keep to the
limit. Of more rows only the first counts, though all are stored: nothing of the others is reached,
so nothing of them is tracked, and they need no accessors.

**In a larger heap** (`UnitOfWork.registerAll_of_extends`). A registration looks at nothing but what
it reaches. So it is the same where further cells lie behind those that are reached, although the
walk may then make more visits than before.

Main result: `Query.takesHead`.
-/

namespace ItemClient

/-! ## Registration in a larger heap -/

section Registration

variable {u : UnitOfWork} {heap heap' : Heap} {roots : List EntityId} {w : Walk} {id : EntityId}

namespace Walk

/-- A visit looks at the entity that is visited and at no other. -/
theorem visit_of_extends (h : heap'.Extends heap) (hid : id < heap.size) (queue : List EntityId) :
    visit u heap' w id queue = visit u heap w id queue := by
  have hread := h.read_eq hid
  have hcollection : heap'.collection id = heap.collection id := by
    rw [Heap.collection, Heap.collection, h.schema?_eq hid]
  have hrelated : heap'.related id = heap.related id := by
    rw [Heap.related, Heap.related, hread]
  have hdiscover : discover u heap' id = discover u heap id := by
    unfold discover
    rw [hread, hcollection]
  unfold visit
  rw [hdiscover, hrelated]

/-- A walk looks at nothing but what is reached. -/
theorem run_of_extends {visits : Nat} (h : heap'.Extends heap)
    (hsmall : ∀ i, heap'.Reaches roots i → i < heap.size)
    (hreached : ∀ i ∈ w.queue, heap'.Reaches roots i) :
    run u heap' visits w = run u heap visits w := by
  induction visits generalizing w with
  | zero => rfl
  | succ visits ih =>
    cases hq : w.queue with
    | nil => simp only [run, hq]
    | cons id queue =>
      have hid : heap'.Reaches roots id := hreached id (hq ▸ List.mem_cons_self)
      simp only [run, hq, ← visit_of_extends h (hsmall id hid)]
      cases hw : visit u heap' w id queue with
      | error e => rfl
      | ok w' =>
        obtain ⟨found, related, -, hrelated, rfl⟩ := visit_eq_ok hw
        refine ih fun i hi => ?_
        rcases List.mem_append.1 hi with hi | hi
        · exact hreached i (hq ▸ List.mem_cons_of_mem _ hi)
        · exact hid.related hrelated (mem_unseen.1 hi).1

/-- A walk can be interrupted. -/
theorem run_add (visits more : Nat) :
    run u heap (visits + more) w = (run u heap visits w).bind (run u heap more) := by
  induction visits generalizing w with
  | zero =>
    rw [Nat.zero_add]
    rfl
  | succ visits ih =>
    rw [Nat.succ_add]
    cases hq : w.queue with
    | nil =>
      simp only [run, hq]
      exact (run_of_queue_eq_nil more hq).symm
    | cons id queue =>
      simp only [run, hq]
      cases visit u heap w id queue with
      | error e => rfl
      | ok w' => exact ih

/-- Further visits are not made: there is nothing left to visit. -/
theorem run_of_size_le {n : Nat} (h : heap.size ≤ n) :
    run u heap (n + 1) (.start roots) = run u heap (heap.size + 1) (.start roots) := by
  obtain ⟨more, rfl⟩ := Nat.exists_eq_add_of_le h
  rw [Nat.add_right_comm, run_add]
  cases hw : run u heap (heap.size + 1) (.start roots) with
  | error e => rfl
  | ok w =>
    obtain ⟨done, -, hq⟩ := exists_inv_of_run hw
    exact run_of_queue_eq_nil more hq

end Walk

/-- **A registration is the same in a larger heap** when nothing that came to the heap is reached. -/
theorem UnitOfWork.registerAll_of_extends (h : heap'.Extends heap)
    (hsmall : ∀ i, heap'.Reaches roots i → i < heap.size) :
    u.registerAll heap' roots = u.registerAll heap roots := by
  have hdiscoveries : u.discoveries heap' roots = u.discoveries heap roots := by
    unfold discoveries
    rw [Walk.run_of_extends h hsmall fun i hi => .root (mem_unseen.1 hi).1,
      Walk.run_of_size_le h.size_le]
  unfold registerAll
  rw [hdiscoveries]

end Registration

/-! ## What is sent -/

variable {σ : Type}

/-- A read sends its request, if it has one, and nothing else. -/
theorem Read.listed_run (read : Read) (u : UnitOfWork) (g : Gateway σ)
    (listed : World (List Request × σ)) :
    (read.run u g.listing listed).world.far.1 =
      listed.far.1 ++ read.request.toOption.toList := by
  cases h : read.request with
  | error e =>
    rw [run_of_request_error h]
    exact (List.append_nil _).symm
  | ok r =>
    rw [far_run h]
    rfl

namespace Query

variable {u : UnitOfWork} {q : Query} {g g' : Gateway σ} {world : World σ} {r : Request} {e : Error}
  {t : Tree} {ts : List Tree}

/-- The rows that an answer lists, as records. -/
def answered (q : Query) (g : Gateway σ) (world : World σ) (r : Request) : Result (List Tree) :=
  (g.send r world).1.bind (Envelope.decode q.collection.readRows?)

/-- Asking for the first row, next to asking for one row: what both send, and what they make of the
answer. -/
structure TakesHead (q : Query) (u : UnitOfWork) (g : Gateway σ) (world : World σ) : Prop where
  /-- They send the same request, if any, and nothing else. -/
  sent : ∀ listed : World (List Request × σ),
    (u.first q g.listing listed).world.far.1 =
      listed.far.1 ++ (Read.first q).request.toOption.toList ∧
    (u.toList (q.withLimit 1) g.listing listed).world.far.1 =
      listed.far.1 ++ (Read.first q).request.toOption.toList
  /-- There is none when a comparison does not compile: then both fail for that reason. -/
  unsent : ∀ e, Filter.compile q.expressions = .error e →
    (Read.first q).request = .error e ∧ u.first q g world = u.failed e world ∧
      u.toList (q.withLimit 1) g world = u.failed e world
  compiled : ∀ f, Filter.compile q.expressions = .ok f → ∃ r, (Read.first q).request = .ok r
  /-- Both fail with the same error when there is no answer or it does not list records, … -/
  failed : ∀ r e, (Read.first q).request = .ok r → q.answered g world r = .error e →
    u.first q g world = u.failed e (g.send r world).2 ∧
      u.toList (q.withLimit 1) g world = u.failed e (g.send r world).2
  /-- … no row is an error when the first is asked for, … -/
  none : ∀ r, (Read.first q).request = .ok r → q.answered g world r = .ok [] →
    u.first q g world = u.failed (.emptyResult q.collection.name) (g.send r world).2 ∧
      u.toList (q.withLimit 1) g world =
        { result := .ok [], tracker := u, world := (g.send r world).2 }
  /-- … and with one row both do the same. -/
  one : ∀ r t, (Read.first q).request = .ok r → q.answered g world r = .ok [t] →
    (u.first q g world).map ([·]) = u.toList (q.withLimit 1) g world
  /-- With more rows all is as if only the first had come, … -/
  more : ∀ r t ts (g' : Gateway σ), (Read.first q).request = .ok r →
    q.answered g world r = .ok (t :: ts) → q.answered g' world r = .ok [t] →
    (g'.send r world).2 = (g.send r world).2 →
    (u.first q g world).result = (u.first q g' world).result ∧
      (u.first q g world).tracker = (u.first q g' world).tracker ∧
      (u.first q g world).notices = (u.first q g' world).notices ∧
      (u.first q g world).world.heap.Extends (u.first q g' world).world.heap ∧
      (u.first q g world).world.far = (u.first q g' world).world.far
  /-- … it is enough when its records have accessors, … -/
  owned : ∀ r t ts, (Read.first q).request = .ok r → q.answered g world r = .ok (t :: ts) →
    (∀ node ∈ t.nodes, u.accessors.contains node.record.schema.collection = true) →
    ∃ id, (u.first q g world).result = .ok id
  /-- … and what it reaches is tracked in addition, and nothing else. -/
  tracked : ∀ r t ts id, (Read.first q).request = .ok r → q.answered g world r = .ok (t :: ts) →
    (u.first q g world).result = .ok id →
    (u.first q g world).world.heap.tree? id = some t ∧
      ∀ i, i ∈ (u.first q g world).tracker.entities ↔
        i ∈ u.entities ∨ (u.first q g world).world.heap.Reaches [id] i

/-! ## What is made of an answer -/

/-- One row is asked for in either way. -/
theorem request_all_withLimit (q : Query) :
    (Read.all (q.withLimit 1)).request = (Read.first q).request := by
  unfold Read.request params
  show ((Filter.compile q.expressions >>= _).map _) = ((Filter.compile q.expressions >>= _).map _)
  cases Filter.compile q.expressions <;> rfl

theorem exists_params (hr : (Read.first q).request = .ok r) :
    ∃ params, q.params = .ok params ∧
      (q.withLimit 1).params = .ok { params with limit := some 1 } ∧
      q.collection.rowsRequest { params with limit := some 1 } = r := by
  obtain ⟨params, hparams, hrequest⟩ := Result.map_eq_ok.1 hr
  obtain ⟨f, hf, hvalue⟩ := Result.bind_eq_ok.1 hparams
  refine ⟨params, hparams, Result.bind_eq_ok.2 ⟨f, hf, ?_⟩, hrequest⟩
  cases hvalue
  rfl

theorem fetchMany_of_answered_error {params : ReadParams}
    (hrequest : q.collection.rowsRequest params = r) (h : q.answered g world r = .error e) :
    q.collection.fetchMany g params world = (.error e, (g.send r world).2) := by
  rw [Collection.fetchMany, hrequest, Collection.read]
  rcases hsend : g.send r world with ⟨_ | response, sent⟩ <;> rw [answered, hsend] at h
  · cases h
    rfl
  · have hrows : Envelope.decode q.collection.readRows? response = .error e := h
    simp only [hrows]

theorem fetchMany_of_answered_ok {params : ReadParams}
    (hrequest : q.collection.rowsRequest params = r) (h : q.answered g world r = .ok ts) :
    q.collection.fetchMany g params world =
      (.ok ((g.send r world).2.heap.addTrees ts).2, (g.send r world).2.store ts) := by
  rw [Collection.fetchMany, hrequest, Collection.read]
  rcases hsend : g.send r world with ⟨_ | response, sent⟩ <;> rw [answered, hsend] at h
  · cases h
  · have hrows : Envelope.decode q.collection.readRows? response = .ok ts := h
    simp only [hrows]
    rfl

theorem toList_of_answered_error (hr : (Read.first q).request = .ok r)
    (h : q.answered g world r = .error e) :
    u.toList (q.withLimit 1) g world = u.failed e (g.send r world).2 := by
  obtain ⟨params, -, hparams, hrequest⟩ := exists_params hr
  have hfetch : (q.withLimit 1).collection.fetchMany g _ world = _ :=
    fetchMany_of_answered_error hrequest h
  rw [UnitOfWork.toList, hparams]
  simp only [hfetch]

theorem first_of_answered_error (hr : (Read.first q).request = .ok r)
    (h : q.answered g world r = .error e) :
    u.first q g world = u.failed e (g.send r world).2 := by
  obtain ⟨params, hparams, -, hrequest⟩ := exists_params hr
  rw [UnitOfWork.first, hparams]
  simp only [fetchMany_of_answered_error hrequest h]

/-- All rows are stored and tracked. -/
theorem toList_of_answered_ok (hr : (Read.first q).request = .ok r)
    (h : q.answered g world r = .ok ts) :
    u.toList (q.withLimit 1) g world =
      u.track ((g.send r world).2.heap.addTrees ts).2 ((g.send r world).2.heap.addTrees ts).2
        ((g.send r world).2.store ts) := by
  obtain ⟨params, -, hparams, hrequest⟩ := exists_params hr
  have hfetch : (q.withLimit 1).collection.fetchMany g _ world = _ :=
    fetchMany_of_answered_ok hrequest h
  rw [UnitOfWork.toList, hparams]
  simp only [hfetch]

theorem first_of_answered_nil (hr : (Read.first q).request = .ok r)
    (h : q.answered g world r = .ok []) :
    u.first q g world = u.failed (.emptyResult q.collection.name) (g.send r world).2 := by
  obtain ⟨params, hparams, -, hrequest⟩ := exists_params hr
  rw [UnitOfWork.first, hparams]
  simp only [fetchMany_of_answered_ok hrequest h]
  rfl

/-- All rows are stored, and the first is tracked. -/
theorem first_of_answered_cons (hr : (Read.first q).request = .ok r)
    (h : q.answered g world r = .ok (t :: ts)) :
    u.first q g world =
      u.track [((g.send r world).2.heap.addTree t).2] ((g.send r world).2.heap.addTree t).2
        ((g.send r world).2.store (t :: ts)) := by
  obtain ⟨params, hparams, -, hrequest⟩ := exists_params hr
  rw [UnitOfWork.first, hparams]
  simp only [fetchMany_of_answered_ok hrequest h]
  rfl

/-! ## What is tracked -/

/-- The first row is read, and all are stored. -/
theorem stores_of_answered (hr : (Read.first q).request = .ok r)
    (h : q.answered g world r = .ok (t :: ts)) :
    ∃ data, (Read.first q).Stores g world r data [t] ts ((g.send r world).2.store (t :: ts))
      [((g.send r world).2.heap.addTree t).2] := by
  obtain ⟨response, hresponse, hdecode⟩ := Result.bind_eq_ok.1 h
  obtain ⟨data, hdata, hrows⟩ := Envelope.decode_eq_ok.1 hdecode
  obtain ⟨items, rfl, hitems⟩ := Collection.readRows?_eq_some.1 hrows
  have hanswer : (g.send r world).1.bind Envelope.unwrap = .ok (.array items) :=
    Result.bind_eq_ok.2 ⟨response, hresponse, hdata⟩
  exact ⟨_, hr, hanswer, ⟨items, rfl, hitems⟩, rfl, rfl, rfl⟩

/-- The rows behind the first make no difference to what is tracked. -/
theorem registerAll_head (u : UnitOfWork) (hr : (Read.first q).request = .ok r)
    (h : q.answered g world r = .ok (t :: ts)) :
    u.registerAll ((g.send r world).2.store (t :: ts)).heap
        [((g.send r world).2.heap.addTree t).2] =
      u.registerAll ((g.send r world).2.store [t]).heap
        [((g.send r world).2.heap.addTree t).2] := by
  obtain ⟨data, hstores⟩ := stores_of_answered hr h
  have hextends := hstores.extends_addTrees
  exact UnitOfWork.registerAll_of_extends hextends fun i hi =>
    ((Heap.reaches_addTrees_iff _ [t] hextends).1 hi).2

end Query

/-- Where nothing is to be tracked nothing happens. -/
theorem UnitOfWork.track_nil {α : Type} (u : UnitOfWork) (a : α) (world : World σ) :
    u.track [] a world = { result := .ok a, tracker := u, world } := by
  have hnone : u.discoveries world.heap [] = .ok [] := rfl
  have hsame : u.adopt [] = u := by simp [adopt, Discovery.track]
  simp [track, registerAll, hnone, hsame]

/-- Tracking does nothing to the world, and sees of it only what is registered. -/
theorem UnitOfWork.track_congr {α : Type} {u : UnitOfWork} {roots : List EntityId} {a : α}
    {world world' : World σ}
    (h : u.registerAll world.heap roots = u.registerAll world'.heap roots) :
    u.track roots a world = { u.track roots a world' with world } := by
  unfold track
  rw [h]
  split <;> rfl

/-- **The first row is the head of one row**, whatever the query, the unit of work, and the far
end. -/
theorem Query.takesHead (q : Query) (u : UnitOfWork) (g : Gateway σ) (world : World σ) :
    q.TakesHead u g world := by
  constructor
  case sent =>
    intro listed
    have hfirst := (Read.first q).listed_run u g listed
    have hall := (Read.all (q.withLimit 1)).listed_run u g listed
    rw [request_all_withLimit] at hall
    exact ⟨hfirst, hall⟩
  case unsent =>
    intro e hcompile
    have hparams : q.params = .error e := Result.bind_eq_error.2 (.inl hcompile)
    have hparams' : (q.withLimit 1).params = .error e := Result.bind_eq_error.2 (.inl hcompile)
    refine ⟨Result.map_eq_error.2 hparams, ?_, ?_⟩
    · rw [UnitOfWork.first, hparams]
    · rw [UnitOfWork.toList, hparams']
  case compiled =>
    intro f hf
    exact ⟨_, Result.map_eq_ok.2 ⟨_, Result.bind_eq_ok.2 ⟨f, hf, rfl⟩, rfl⟩⟩
  case failed =>
    intro r e hr h
    exact ⟨first_of_answered_error hr h, toList_of_answered_error hr h⟩
  case none =>
    intro r hr h
    refine ⟨first_of_answered_nil hr h, ?_⟩
    rw [toList_of_answered_ok hr h]
    exact UnitOfWork.track_nil ..
  case one =>
    intro r t hr h
    rw [first_of_answered_cons hr h, toList_of_answered_ok hr h]
    exact UnitOfWork.map_track ..
  case more =>
    intro r t ts g' hr h h' hsent
    rw [first_of_answered_cons hr h, first_of_answered_cons hr h', hsent,
      UnitOfWork.track_congr (registerAll_head u hr h)]
    refine ⟨rfl, rfl, rfl, ?_, ?_⟩
    · rw [UnitOfWork.world_track]
      exact Heap.addTrees_extends _ ts
    · rw [UnitOfWork.world_track]
      rfl
  case owned =>
    intro r t ts hr h hall
    obtain ⟨data, hstores⟩ := stores_of_answered hr h
    obtain ⟨n, hn⟩ := hstores.registers (u := u) (by simpa using hall)
    rw [first_of_answered_cons hr h]
    exact ⟨_, UnitOfWork.track_of_registerAll hn⟩
  case tracked =>
    intro r t ts id hr h hok
    rw [first_of_answered_cons hr h] at hok ⊢
    obtain ⟨rfl, hworld, n, notices, hregister⟩ := UnitOfWork.track_eq_ok hok
    obtain ⟨new, hgrows, -⟩ := UnitOfWork.registerAll_grows hregister
    rw [hworld]
    exact ⟨Heap.tree?_addTree _ t (Heap.addTrees_extends _ ts), hgrows.entities⟩

/-! Two parcels come where one was asked for. The second leads to a place, and places have no
accessor. -/

namespace Session

/-- A record type without relations. -/
def place : Schema :=
  { model := "place", collection := "place", keyWire := "id", keyKind := .text, members := [] }

/-- A record type whose records lead to a place each. -/
def parcel : Schema :=
  { model := "parcel", collection := "parcel", keyWire := "id", keyKind := .text,
    members := [⟨"to", .one "place"⟩] }

/-- All parcels. -/
def parcels : Query := { collection := { catalog := [parcel, place], schema := parcel } }

/-- A unit of work with an accessor for parcels. -/
def sender : UnitOfWork := { accessors := .ofCatalog [parcel] }

/-- A store that gives these rows to every request. -/
def shelf (rows : String) : Gateway Unit where
  send _ world := (.ok (.ofText 200 ("\x7b\"data\":[" ++ rows ++ "]\x7d")), world)
  handOver _ _ _ world := (.ok (), world)

/-- A parcel. -/
def nearRow : String := "\x7b\"id\":\"a\"\x7d"

/-- A parcel for a place. -/
def farRow : String := "\x7b\"id\":\"b\",\"to\":\"x\"\x7d"

theorem answered_shelf {rows : String} {items : List Json} {ts : List Tree}
    (hwraps : (Response.ofText 200 ("\x7b\"data\":[" ++ rows ++ "]\x7d")).Wraps (.array items))
    (hrows : parcels.collection.readRows? (Json.array items).canon = some ts)
    (world : World Unit) (r : Request) : parcels.answered (shelf rows) world r = .ok ts := by
  have hdecode := Envelope.decode_eq_ok.2 ⟨_, hwraps.unwrap, hrows⟩
  exact hdecode

theorem wraps_nearRow :
    (Response.ofText 200 ("\x7b\"data\":[" ++ nearRow ++ "]\x7d")).Wraps
      (.array [.object [("id", .string "a")]]) where
  succeeds := rfl
  body := by decide +kernel
  doubles := by decide +kernel
  depth := by decide

theorem wraps_bothRows :
    (Response.ofText 200 ("\x7b\"data\":[" ++ (nearRow ++ "," ++ farRow) ++ "]\x7d")).Wraps
      (.array [.object [("id", .string "a")], .object [("id", .string "b"), ("to", .string "x")]])
    where
  succeeds := rfl
  body := by decide +kernel
  doubles := by decide +kernel
  depth := by decide

/-- The first parcel is tracked as if it had come alone. Both cannot be tracked. -/
theorem takesHead_parcels :
    (∃ id, (sender.first parcels (shelf (nearRow ++ "," ++ farRow)) ⟨⟨[]⟩, ()⟩).result = .ok id) ∧
    (sender.first parcels (shelf (nearRow ++ "," ++ farRow)) ⟨⟨[]⟩, ()⟩).tracker =
      (sender.first parcels (shelf nearRow) ⟨⟨[]⟩, ()⟩).tracker ∧
    (sender.toList (parcels.withLimit 1) (shelf (nearRow ++ "," ++ farRow))
      ⟨⟨[]⟩, ()⟩).result.isOk = false := by
  obtain ⟨r, hr⟩ := (parcels.takesHead sender (shelf nearRow) ⟨⟨[]⟩, ()⟩).compiled {} rfl
  have htakes := parcels.takesHead sender (shelf (nearRow ++ "," ++ farRow)) ⟨⟨[]⟩, ()⟩
  have hone : parcels.answered (shelf nearRow) ⟨⟨[]⟩, ()⟩ r =
      .ok [.node parcel (.text "a") [.one none]] :=
    answered_shelf wraps_nearRow rfl _ r
  have htwo : parcels.answered (shelf (nearRow ++ "," ++ farRow)) ⟨⟨[]⟩, ()⟩ r =
      .ok [.node parcel (.text "a") [.one none],
        .node parcel (.text "b") [.one (some (.node place (.text "x") []))]] :=
    answered_shelf wraps_bothRows rfl _ r
  refine ⟨htakes.owned r _ _ hr htwo ?_, (htakes.more r _ _ _ hr htwo hone rfl).2.1,
    by decide +kernel⟩
  rw [Tree.nodes]
  decide +kernel

end Session

end ItemClient
