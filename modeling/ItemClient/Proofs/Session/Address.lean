import ItemClient.Proofs.Link.Wrapping
import ItemClient.Proofs.Session.Reading
import ItemClient.Proofs.Session.Snapshot

/-!
# Which rows PATCHes go to

An entity that was read is tracked as it was read, so its row is believed to have the key that was
given for it, or the default of its kind where none was given. After that only acknowledged
change sets change the believed key (`Beliefs.head?_hear`), and every PATCH goes to the row with
the believed key.

**Addresses** (`Chronicle.Reachable.read_addresses`). Let entities be read in any session, and let
any steps follow that do not track an entity anew. A PATCH of the entity goes to the row with the
key that was last acknowledged for it since; as long as there is none, to the row with the key
that it was read with; and if it was read without a key, to the row with the default key.

`not_known_nameless` is a PATCH of an entity that was read without a key.
-/

namespace ItemClient

/-- The keys that acknowledged change sets gave to an entity, oldest first. -/
def keysHeard (wire : String) (id : EntityId) (heard : List (EntityId × ChangeSet)) : List Json :=
  heard.filterMap fun (i, changes) => if i = id then changes.get? wire else none

/-! ## The believed key -/

namespace Beliefs

variable {believed believed' : Beliefs} {id : EntityId} {wire : String} {j : Json}

theorem hear_append (believed : Beliefs) (heard more : List (EntityId × ChangeSet)) :
    believed.hear (heard ++ more) = (believed.hear heard).hear more := by
  induction heard generalizing believed with
  | nil => rfl
  | cons entry rest ih => exact ih _

/-- What is believed of an entity in the end depends only on what was believed of it. -/
theorem hear_congr (h : believed id = believed' id) (heard : List (EntityId × ChangeSet)) :
    believed.hear heard id = believed'.hear heard id := by
  induction heard generalizing believed believed' with
  | nil => exact h
  | cons entry rest ih =>
    obtain ⟨i, changes⟩ := entry
    refine ih ?_
    by_cases hi : id = i
    · subst hi
      rw [Function.update_self, Function.update_self, h]
    · rw [Function.update_of_ne hi, Function.update_of_ne hi, h]

/-- **The key of a row is the one that was heard last**, or else the one it had. -/
theorem head?_hear (h : (believed id).row.head? = some (wire, j))
    (heard : List (EntityId × ChangeSet)) :
    (believed.hear heard id).row.head? =
      some (wire, (keysHeard wire id heard).getLast?.getD j) := by
  induction heard generalizing believed j with
  | nil => exact h
  | cons entry rest ih =>
    obtain ⟨i, changes⟩ := entry
    by_cases hi : i = id
    · subst hi
      have hoverwritten : ((Function.update believed i ((believed i).overwrite changes)) i).row.head?
          = some (wire, (changes.get? wire).getD j) := by
        rw [Function.update_self, Belief.overwrite, ChangeSet.overwrite, List.head?_map, h]
        rfl
      rw [hear, ih hoverwritten]
      cases hget : changes.get? wire <;>
        simp [keysHeard, hget, List.getLast?_cons]
    · have hother : ((Function.update believed i ((believed i).overwrite changes)) id).row.head?
          = some (wire, j) := by
        rw [Function.update_of_ne (Ne.symm hi), h]
      rw [hear, ih hother]
      simp [keysHeard, hi]

end Beliefs

/-! ## Addresses -/

/-- A PATCH goes to a row with a key that was given for the entity or acknowledged since. -/
def KnownKey (s : Schema) (j : Json) (heard : List Json) (identity : String) : Prop :=
  (∃ k key, s.keyGiven? j = some k ∧ Key.ofJson? s.keyKind k = some key ∧
    identity = key.identity) ∨ ∃ k ∈ heard, k.segment? = some identity

/-- The row that a PATCH goes to, for an entity that was read from `j`. -/
structure Addressed (s : Schema) (j : Json) (heard : List Json) (identity : String) : Prop where
  acknowledged : ∀ k, heard.getLast? = some k → k.segment? = some identity
  given : heard = [] → ∀ k, s.keyGiven? j = some k →
    ∃ key, Key.ofJson? s.keyKind k = some key ∧ identity = key.identity
  invented : heard = [] → s.keyGiven? j = none → identity = (Key.default s.keyKind).identity

theorem addressed_of_segment? {s : Schema} {j : Json} {heard : List Json} {identity : String}
    {key : Key} (hkey : s.keyOf? j = some key)
    (h : (heard.getLast?.getD key.toJson).segment? = some identity) :
    Addressed s j heard identity := by
  have hnone : heard = [] → identity = key.identity := by
    rintro rfl
    exact Option.some.inj (h.symm.trans (Key.segment?_of_same (Json.same_refl _)))
  unfold Schema.keyOf? at hkey
  constructor
  case acknowledged =>
    intro k hk
    rwa [hk] at h
  case given =>
    intro hheard k hk
    rw [hk] at hkey
    exact ⟨key, hkey, hnone hheard⟩
  case invented =>
    intro hheard hk
    rw [hk] at hkey
    obtain rfl := Option.some.inj hkey
    exact hnone hheard

/-- The key is known exactly when the entity was read with one or one was acknowledged since. -/
theorem Addressed.known_iff {s : Schema} {j : Json} {heard : List Json} {identity : String}
    (h : Addressed s j heard identity) :
    KnownKey s j heard identity ↔ s.keyGiven? j ≠ none ∨ heard ≠ [] := by
  constructor
  · rintro (⟨k, key, hk, -⟩ | ⟨k, hk, -⟩)
    · exact .inl (by simp [hk])
    · exact .inr (List.ne_nil_of_mem hk)
  · intro hknown
    by_cases hheard : heard = []
    · obtain ⟨k, hk⟩ := Option.ne_none_iff_exists'.1 (hknown.resolve_right (not_not.2 hheard))
      obtain ⟨key, hkey, hidentity⟩ := h.given hheard k hk
      exact .inl ⟨k, key, hk, hkey, hidentity⟩
    · have hlast := List.getLast?_eq_some_getLast hheard
      exact .inr ⟨_, List.getLast_mem hheard, h.acknowledged _ hlast⟩

namespace Chronicle

variable {σ : Type} {c c' : Chronicle} {id : EntityId}

/-- Make a read. Where it fails nothing is tracked. -/
def read (c : Chronicle) (read : Read) (g : Gateway σ) (far : σ) : Chronicle :=
  let o := read.run c.session.tracker g (c.session.world far)
  registerAll { c with session := { c.session with heap := o.world.heap } }
    (o.result.toOption.getD [])

/-- Steps that do not track an entity anew. -/
def Later (id : EntityId) : Chronicle → Chronicle → Prop :=
  Relation.ReflTransGen fun c c' =>
    Step c c' ∧ (id ∈ c'.session.tracker.entities → id ∈ c.session.tracker.entities)

theorem Later.reachable (h : Later id c c') (hc : c.Reachable) : c'.Reachable := by
  induction h with
  | refl => exact hc
  | tail _ hstep ih => exact ih.tail hstep.1

/-- **A step hears what is acknowledged**, and believes nothing else of what it does not track
anew. -/
theorem Step.hears (h : Step c c')
    (hold : id ∈ c'.session.tracker.entities → id ∈ c.session.tracker.entities) :
    ∃ more, c'.heard = c.heard ++ more ∧
      c'.session.believed id = c.session.believed.hear more id := by
  cases h with
  | change hchange => exact ⟨[], by simp, rfl⟩
  | register roots =>
    refine ⟨[], by simp [Chronicle.registerAll], ?_⟩
    have hnotNew : ((c.session.tracker.registerAll c.session.heap roots).2.1.isTracked id &&
        !c.session.tracker.isTracked id) = false := by
      by_cases htracked : (c.registerAll roots).session.tracker.isTracked id = true
      · have hbefore := UnitOfWork.isTracked_iff.2 (hold (UnitOfWork.isTracked_iff.1 htracked))
        simp [hbefore]
      · have hnow : (c.session.tracker.registerAll c.session.heap roots).2.1.isTracked id = false :=
          Bool.not_eq_true _ ▸ htracked
        simp [hnow]
    show (if _ then _ else _) = _
    rw [hnotNew]
    rfl
  | commit far hg => exact ⟨_, rfl, rfl⟩
  | reset => exact ⟨[], by simp, rfl⟩

theorem Later.hears (h : Later id c c') :
    ∃ since, c'.heard = c.heard ++ since ∧
      c'.session.believed id = c.session.believed.hear since id := by
  induction h with
  | refl => exact ⟨[], by simp, rfl⟩
  | tail _ hstep ih =>
    obtain ⟨since, hheard, hbelieved⟩ := ih
    obtain ⟨more, hheard', hbelieved'⟩ := hstep.1.hears hstep.2
    refine ⟨since ++ more, by rw [hheard', hheard, List.append_assoc], ?_⟩
    rw [hbelieved', Beliefs.hear_append]
    exact Beliefs.hear_congr hbelieved more

/-! ## Entities that were read -/

section Reads

variable {read : Read} {g : Gateway σ} {far : σ} {entities : List EntityId}

/-- What a read does to the session. -/
theorem session_read (hok : (read.run c.session.tracker g (c.session.world far)).result =
      .ok entities) :
    c.read read g far = registerAll { c with session := { c.session with
      heap := (read.run c.session.tracker g (c.session.world far)).world.heap } } entities := by
  rw [Chronicle.read, hok]
  rfl

/-- How PATCHes are addressed after a read that goes well. -/
structure Addresses (c : Chronicle) (read : Read) (g : Gateway σ) (far : σ)
    (entities : List EntityId) (data : Json) : Prop where
  answer : read.answer g (c.session.world far) = .ok data
  length : (read.rows data).length = entities.length
  /-- The session afterwards is what the read leaves. -/
  tracker : (c.read read g far).session.tracker =
    (read.run c.session.tracker g (c.session.world far)).tracker
  heap : (c.read read g far).session.heap =
    (read.run c.session.tracker g (c.session.world far)).world.heap
  reachable : (c.read read g far).Reachable
  /-- Tracked from now on are the entities that were read. -/
  tracked : ∀ id, id ∈ (c.read read g far).session.tracker.entities ↔
    id ∈ c.session.tracker.entities ∨ ∃ s j, (c.read read g far).session.heap.ReadFrom
      read.collection ((read.rows data).zip entities) id s j
  /-- Wherever any later steps lead, the PATCHes of an entity go to the row with a key that was
  given for it or acknowledged since, if there is one, and otherwise to one that was invented. -/
  patches : ∀ id s j, (c.read read g far).session.heap.ReadFrom read.collection
      ((read.rows data).zip entities) id s j →
    ∀ c', Later id (c.read read g far) c' → ∃ since, c'.heard = (c.read read g far).heard ++ since ∧
      ∀ {τ : Type} (g' : Gateway τ) (far' : τ),
        ∀ x ∈ Sweep.patches g' c'.session.tracker.records (c'.session.world far'),
          x.tracked.entity = id →
            let heard := keysHeard s.keyWire id since
            Addressed s j heard x.pending.identity ∧
              (KnownKey s j heard x.pending.identity ↔ s.keyGiven? j ≠ none ∨ heard ≠ [])

/-- An entity that is newly tracked is believed to have the key that it has. -/
theorem head?_believed_registerAll {roots : List EntityId} {r : Record EntityId}
    (hread : c.session.heap.read id = .ok r) (hold : id ∉ c.session.tracker.entities)
    (hnew : id ∈ (c.registerAll roots).session.tracker.entities) :
    ((c.registerAll roots).session.believed id).row.head? =
      some (r.schema.keyWire, r.key.toJson) := by
  have hisNew : ((c.session.tracker.registerAll c.session.heap roots).2.1.isTracked id &&
      !c.session.tracker.isTracked id) = true := by
    have hbefore : c.session.tracker.isTracked id = false := by
      rw [← Bool.not_eq_true, UnitOfWork.isTracked_iff]
      exact hold
    have hnow := UnitOfWork.isTracked_iff.2 hnew
    simp only [hbefore, Bool.not_false, Bool.and_true]
    exact hnow
  show (if _ then Belief.of c.session.heap id else _).row.head? = _
  rw [if_pos hisNew, Belief.of_record? (Heap.record?_of_read hread)]
  rfl

theorem Reachable.changes {heap : Heap} (h : c.Reachable) (hchanges : c.session.heap.Changes heap) :
    Reachable { c with session := { c.session with heap } } := by
  induction hchanges with
  | refl => exact h
  | tail _ hchange ih => exact ih.tail (.change hchange)

/-- **PATCHes of an entity** that was tracked with the key of `j` go to the row with the key that
was heard last since, or with that key. -/
theorem addressed_of_later {s : Schema} {j : Json} {key : Key} (h : c.Reachable)
    (hkey : s.keyOf? j = some key)
    (hhead : (c.session.believed id).row.head? = some (s.keyWire, key.toJson))
    (hlater : Later id c c') :
    ∃ since, c'.heard = c.heard ++ since ∧ ∀ {τ : Type} (g : Gateway τ) (far : τ),
      ∀ x ∈ Sweep.patches g c'.session.tracker.records (c'.session.world far),
        x.tracked.entity = id →
          Addressed s j (keysHeard s.keyWire id since) x.pending.identity := by
  obtain ⟨since, hheard, hbelieved⟩ := hlater.hears
  refine ⟨since, hheard, ?_⟩
  rintro τ g far x hx rfl
  refine addressed_of_segment? hkey ?_
  have hsegment := (hlater.reachable h).session.inv.segment?_of_mem_patches hx
  rw [hbelieved, Belief.segment?, Beliefs.head?_hear hhead] at hsegment
  exact hsegment

/-- **PATCHes of entities that were read.** -/
theorem Reachable.read_addresses (h : c.Reachable) (hg : g.OrderlyReads)
    (hc : read.collection.WellFormed)
    (hok : (read.run c.session.tracker g (c.session.world far)).result = .ok entities) :
    ∃ data, c.Addresses read g far entities data := by
  obtain ⟨r, data, n, notices, hrequest, hfetched, hlength, hregister⟩ := Read.fetched_of_run hok
  set heap := (read.run c.session.tracker g (c.session.world far)).world.heap with hheap
  set fetched : Chronicle := { c with session := { c.session with heap := heap } } with hdef
  have hsession : c.read read g far = fetched.registerAll entities := session_read hok
  obtain ⟨found, hfound, -, htracker⟩ := UnitOfWork.registerAll_eq_ok hregister
  have htracker' : (c.read read g far).session.tracker =
      (read.run c.session.tracker g (c.session.world far)).tracker := by
    rw [hsession]
    show (c.session.tracker.registerAll heap entities).2.1 = _
    rw [hregister]
  have hheap' : (c.read read g far).session.heap = heap := by
    rw [hsession]
    rfl
  have hreached : (c.read read g far).Reachable :=
    hsession ▸ (h.changes (hfetched.changes hg hc)).tail (.register entities)
  have hrows := hfetched.stores hg
  have htracked : ∀ id, id ∈ (c.read read g far).session.tracker.entities ↔
      id ∈ c.session.tracker.entities ∨ ∃ s j, heap.ReadFrom read.collection
        ((read.rows data).zip entities) id s j := by
    intro id
    have hentities : ((read.rows data).zip entities).map Prod.snd = entities :=
      List.map_snd_zip hlength.ge
    rw [htracker', htracker, hfound.mem_entities_adopt, ← Heap.reaches_iff_readFrom hc hrows,
      hentities]
  refine ⟨data, ?_⟩
  constructor
  case answer =>
    rw [Read.answer, hrequest]
    exact hfetched.answer
  case length => exact hlength
  case tracker => exact htracker'
  case heap => exact hheap'
  case reachable => exact hreached
  case tracked => rwa [hheap']
  case patches =>
    intro id s j hfrom c' hlater
    rw [hheap'] at hfrom
    obtain ⟨t, hdecodes, hstores⟩ := hfrom.stores hc hrows
    obtain ⟨live, hread, hschema, hkey, -⟩ := hstores.exists_read
    -- The entity is new, so it was not tracked before and is believed to be as it was read.
    have hold : id ∉ c.session.tracker.entities := fun hid =>
      Nat.not_lt.2 hstores.le (h.session.inv.lt_size hid)
    have hnew : id ∈ (fetched.registerAll entities).session.tracker.entities :=
      hsession ▸ (htracked id).2 (.inr ⟨s, j, hfrom⟩)
    have hhead := head?_believed_registerAll (c := fetched) hread hold hnew
    rw [← hsession, hschema, hkey, hdecodes.schema] at hhead
    obtain ⟨since, hheard, haddressed⟩ := addressed_of_later hreached hdecodes.key hhead hlater
    refine ⟨since, hheard, fun g' far' x hx hid => ?_⟩
    have hx := haddressed g' far' x hx hid
    exact ⟨hx, hx.known_iff⟩

end Reads

/-! A tag is asked for by its key. The answer does not give this key, only its name and the bare
key of the tag that it refers to; then both tags get another name. -/

/-- A session without entities. -/
def blank : Chronicle := { session := { tracker := { accessors := .ofCatalog [Session.tag] } } }

/-- The tag that is asked for. -/
def asked : Read := .row { catalog := [Session.tag], schema := Session.tag } "a" {}

/-- An answer that leaves out the key. -/
def namelessRow : Response :=
  .ofText 200 "\x7b\"data\":\x7b\"name\":\"first\",\"of\":\"b\"\x7d\x7d"

/-- A store that gives this answer to every read. -/
def nameless : Gateway Unit where
  send r world :=
    match r.method with
    | .get => (.ok namelessRow, world)
    | .patch => (.ok ⟨200, []⟩, world)
  handOver _ _ _ world := (.ok (), world)

/-- The tags as they are read. -/
def tagsRead : Heap :=
  { cells := [⟨Session.tagOf "b" "" none, false⟩, ⟨Session.tagOf "" "first" (some 0), false⟩] }

theorem wraps_namelessRow :
    namelessRow.Wraps (.object [("name", .string "first"), ("of", .string "b")]) where
  succeeds := rfl
  body := by decide +kernel
  doubles := by decide +kernel
  depth := by decide

theorem unwrap_namelessRow :
    Envelope.unwrap namelessRow =
      .ok (.object [("name", .string "first"), ("of", .string "b")]) := by
  rw [wraps_namelessRow.unwrap]
  rfl

theorem readRow?_nameless :
    asked.collection.readRow? (.object [("name", .string "first"), ("of", .string "b")]) =
      some (.node Session.tag (.text "") [.scalar (.text "first"),
        .one (some (.stub Session.tag (.text "b")))]) := by
  simp [asked, Read.collection, Collection.readRow?, Tree.ofJson?, Tree.ofFields?, Tree.readKey?,
    Tree.readMembers?, Tree.readValue?, Tree.ofReference?, Tree.assemble, Catalog.schema?,
    Schema.member?, Members.get?, Session.tag, Scalar.ofJson?, Key.ofJson?, Key.default]

theorem run_asked :
    (asked.run blank.session.tracker nameless (blank.session.world ())).result = .ok [1] ∧
      (asked.run blank.session.tracker nameless (blank.session.world ())).world.heap =
        tagsRead := by
  have hread : Collection.read nameless asked.collection.readRow?
      (asked.collection.rowRequest "a" {}) (blank.session.world ()) =
        (.ok (.node Session.tag (.text "") [.scalar (.text "first"),
          .one (some (.stub Session.tag (.text "b")))]), blank.session.world ()) := by
    have hsend : nameless.send (asked.collection.rowRequest "a" {}) (blank.session.world ()) =
        (.ok namelessRow, blank.session.world ()) := rfl
    have hdecode := Envelope.decode_eq_ok.2 ⟨_, unwrap_namelessRow, readRow?_nameless⟩
    simp only [Collection.read, hsend, hdecode]
  have hfetch : asked.collection.fetch nameless "a" {} (blank.session.world ()) =
      (.ok 1, { heap := tagsRead, far := () }) := by
    unfold Collection.fetch
    rw [hread]
    rfl
  have hload : blank.session.tracker.load asked.collection nameless "a" {}
      (blank.session.world ()) =
        blank.session.tracker.track [1] 1 { heap := tagsRead, far := () } := by
    unfold UnitOfWork.load
    rw [hfetch]
  have hrun : asked.run blank.session.tracker nameless (blank.session.world ()) =
      (blank.session.tracker.track [1] 1 { heap := tagsRead, far := () }).map ([·]) := by
    rw [← hload]
    unfold Read.run asked
    rfl
  rw [hrun]
  exact ⟨rfl, rfl⟩

/-- Both are tracked. -/
def arrived : Chronicle :=
  registerAll { blank with session := { blank.session with heap := tagsRead } } [1]

theorem read_asked : blank.read asked nameless () = arrived := by
  rw [session_read run_asked.1, run_asked.2]
  rfl

/-- The second gets another name. -/
def renamedRow : Chronicle :=
  { arrived with
    session :=
      { arrived.session with
        heap :=
          { cells := [⟨Session.tagOf "b" "" none, false⟩,
              ⟨Session.tagOf "" "new" (some 0), false⟩] } } }

/-- So does the first. -/
def renamedBoth : Chronicle :=
  { renamedRow with
    session :=
      { renamedRow.session with
        heap :=
          { cells := [⟨Session.tagOf "b" "second" none, false⟩,
              ⟨Session.tagOf "" "new" (some 0), false⟩] } } }

theorem reachable_blank : blank.Reachable := by
  refine ⟨blank, ⟨?_, rfl, [.remote Session.tag], rfl⟩, .refl⟩
  intro id r h
  cases h

theorem later_renamedBoth (id : EntityId) :
    Later id (blank.read asked nameless ()) renamedBoth := by
  have hrow : arrived.session.heap.edit 1 (.scalar "name" (.text "new")) =
      .ok renamedRow.session.heap := rfl
  have hboth : renamedRow.session.heap.edit 0 (.scalar "name" (.text "second")) =
      .ok renamedBoth.session.heap := rfl
  have hfirst : Step arrived renamedRow := .change (.edit hrow)
  have hsecond : Step renamedRow renamedBoth := .change (.edit hboth)
  rw [read_asked]
  exact (Relation.ReflTransGen.single ⟨hfirst, fun h => h⟩).tail ⟨hsecond, fun h => h⟩

theorem orderlyReads_nameless : nameless.OrderlyReads := by
  intro r world
  unfold nameless
  dsimp only
  split <;> exact .refl

theorem wellFormed_asked : asked.collection.WellFormed where
  schema := by
    show Session.tag.wires.Nodup
    decide
  catalog := by
    intro s hs
    obtain rfl : s = Session.tag := List.mem_singleton.1 hs
    decide

theorem answer_asked : asked.answer nameless (blank.session.world ()) =
    .ok (.object [("name", .string "first"), ("of", .string "b")]) := by
  have hsend : (nameless.send (asked.collection.rowRequest "a" {}) (blank.session.world ())).1 =
      .ok namelessRow := rfl
  have hrequest : asked.request = .ok (asked.collection.rowRequest "a" {}) := rfl
  simp only [Read.answer, hrequest, Except.bind, hsend, unwrap_namelessRow]

theorem readFrom_row : (blank.read asked nameless ()).session.heap.ReadFrom asked.collection
    ((asked.rows (.object [("name", .string "first"), ("of", .string "b")])).zip [1]) 1
    Session.tag (.object [("name", .string "first"), ("of", .string "b")]) :=
  .row List.mem_cons_self

theorem readFrom_stub : (blank.read asked nameless ()).session.heap.ReadFrom asked.collection
    ((asked.rows (.object [("name", .string "first"), ("of", .string "b")])).zip [1]) 0
    Session.tag (.string "b") := by
  have hread : (blank.read asked nameless ()).session.heap.read 1 =
      .ok (Session.tagOf "" "first" (some 0)) := by
    rw [read_asked]
    rfl
  have hmember : (⟨"of", .one "tag"⟩, .one (some 0)) ∈
      Session.tag.members.zip (Session.tagOf "" "first" (some 0)).values :=
    List.mem_cons_of_mem _ List.mem_cons_self
  refine readFrom_row.related hread hmember rfl rfl ?_
  simp [Schema.given?, Members.get?, MemberType.standing, Value.related]

/-- The PATCH of the tag of which only the key was given goes to the row of this key. -/
theorem read_addresses_renamedBoth :
    ∃ data, blank.Addresses asked nameless () [1] data ∧
      ∃ x ∈ Sweep.patches nameless renamedBoth.session.tracker.records
          (renamedBoth.session.world ()),
        x.tracked.entity = 0 ∧ KnownKey Session.tag (.string "b") [] x.pending.identity := by
  obtain ⟨data, haddresses⟩ := Reachable.read_addresses reachable_blank orderlyReads_nameless
    wellFormed_asked run_asked.1
  obtain rfl : data = .object [("name", .string "first"), ("of", .string "b")] :=
    Except.ok.inj (haddresses.answer.symm.trans answer_asked)
  obtain ⟨since, hheard, hpatches⟩ :=
    haddresses.patches 0 _ _ readFrom_stub renamedBoth (later_renamedBoth 0)
  obtain rfl : since = [] := by
    rw [read_asked] at hheard
    exact hheard.symm
  have hx : (Sweep.patches nameless renamedBoth.session.tracker.records
      (renamedBoth.session.world ()))[1] ∈ _ := List.getElem_mem (by decide)
  refine ⟨_, haddresses, _, hx, rfl, ?_⟩
  exact (hpatches nameless () _ hx rfl).2.2 (.inl (by simp [Schema.keyGiven?]))

/-- **A PATCH can go to an invented row**: the tag that was read without a key. -/
theorem not_known_nameless :
    ¬ ∀ (σ τ : Type) (g : Gateway σ) (far : σ) (g' : Gateway τ) (far' : τ) (c c' : Chronicle)
      (read : Read) (entities : List EntityId) (data : Json), c.Reachable → g.OrderlyReads →
      read.collection.WellFormed →
      (read.run c.session.tracker g (c.session.world far)).result = .ok entities →
      read.answer g (c.session.world far) = .ok data →
      ∀ id s j, (c.read read g far).session.heap.ReadFrom read.collection
          ((read.rows data).zip entities) id s j →
        Later id (c.read read g far) c' →
        ∀ since, c'.heard = (c.read read g far).heard ++ since →
          ∀ x ∈ Sweep.patches g' c'.session.tracker.records (c'.session.world far'),
            x.tracked.entity = id →
              KnownKey s j (keysHeard s.keyWire id since) x.pending.identity := by
  intro hall
  have hx : (Sweep.patches nameless renamedBoth.session.tracker.records
      (renamedBoth.session.world ()))[0] ∈ _ := List.getElem_mem (by decide)
  have hheard : renamedBoth.heard = (blank.read asked nameless ()).heard ++ [] := by
    rw [read_asked]
    rfl
  have hknown := hall Unit Unit nameless () nameless () blank renamedBoth asked [1] _
    reachable_blank orderlyReads_nameless wellFormed_asked run_asked.1 answer_asked 1 _ _
    readFrom_row (later_renamedBoth 1) [] hheard _ hx rfl
  -- The value gives no key, and none was acknowledged.
  rcases hknown with ⟨k, key, hk, -⟩ | ⟨k, hk, -⟩
  · simp [Schema.keyGiven?, Schema.given?, Members.get?, Session.tag] at hk
  · cases hk

end Chronicle

end ItemClient
