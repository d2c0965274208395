import ItemClient.Http.Link
import ItemClient.Proofs.Commit.Turns
import ItemClient.Proofs.Filter.Merge
import ItemClient.Proofs.Session.Reading
import ItemClient.Proofs.Session.Script

/-!
# Failures before anything is sent

A call can fail before the network is handed anything. Mostly the program or its input is to blame,
and such a failure is permanent: it is not retryable, and the call fails the same way when it is
repeated (`Result.IsPermanent`). A request that cannot be built (`Endpoint.Builds`) is a failure of
this kind too, but it is reported as a failure of the link, and those are all retryable, on their
own and in the failure of a commit.

So of the failures before anything is sent just those of requests that cannot be built are
retryable (`Endpoint.Unsent`), although repeating these calls is of no use either. What is handed to
the network is listed by `Endpoint.recorder`. One request is handed over at most by each read and by
each turn of a commit, and nothing but an answer lets a commit go on to the next turn.

Main result: `Endpoint.retryable_unsent_iff`.
-/

namespace ItemClient

/-! ## Permanent failures -/

namespace Result

variable {α β : Type} {x : Result α} {f : α → Result β}

/-- A failure is not retryable. -/
def IsPermanent (x : Result α) : Prop := ∀ e, x = .error e → e.isRetryable = false

theorem isPermanent_ok (a : α) : IsPermanent (.ok a : Result α) := by
  intro e he
  cases he

theorem IsPermanent.bind (hx : IsPermanent x) (hf : ∀ a, IsPermanent (f a)) :
    IsPermanent (x >>= f) := by
  intro e he
  rcases bind_eq_error.1 he with he | ⟨a, -, he⟩
  · exact hx e he
  · exact hf a e he

theorem IsPermanent.map (hx : IsPermanent x) (f : α → β) : IsPermanent (x.map f) := fun e he =>
  hx e (map_eq_error.1 he)

end Result

open Result

section Permanent

variable {ρ : Type} {heap : Heap} {id : EntityId}

theorem Heap.isPermanent_read (heap : Heap) (id : EntityId) : IsPermanent (heap.read id) := by
  intro e he
  unfold Heap.read at he
  split at he <;> cases he
  rfl

theorem Record.isPermanent_diffMembers {reference : ρ → Result Json}
    (hreference : ∀ r, IsPermanent (reference r)) (ms : List Member) (vs ws : List (Value ρ))
    (changes : ChangeSet) : IsPermanent (Record.diffMembers reference ms vs ws changes) := by
  have hone : ∀ o, IsPermanent (Record.referenceOf? reference o) := by
    rintro (_ | r)
    · exact isPermanent_ok _
    · exact (hreference r).map _
  induction ms, vs, ws, changes using Record.diffMembers.induct with
  | case1 m ms vs ws changes live prior ih =>
    rw [Record.diffMembers]
    exact ih
  | case2 m ms vs ws changes live prior ih =>
    rw [Record.diffMembers]
    exact (hone _).bind fun live => (hone _).bind fun prior => ih live prior
  | case3 m ms v vs w ws changes _ _ ih =>
    rw [Record.diffMembers]
    · exact ih
    all_goals assumption
  | case4 =>
    rw [Record.diffMembers]
    · exact isPermanent_ok _
    all_goals assumption

theorem Heap.isPermanent_snapshotOf (heap : Heap) (id : EntityId) (snapshot : Snapshot) :
    IsPermanent (heap.snapshotOf id snapshot) := by
  intro e he
  unfold Heap.snapshotOf at he
  split at he
  · cases he
    rfl
  · split at he <;> cases he
    rfl

theorem Tracked.isPermanent_pending? (heap : Heap) (t : Tracked) :
    IsPermanent (t.pending? heap) := by
  have hdiff : IsPermanent (heap.diff t.entity t.original) :=
    (heap.isPermanent_snapshotOf _ _).bind fun prior => (heap.isPermanent_read _).bind fun live =>
      Record.isPermanent_diffMembers (fun id => (heap.isPermanent_read id).map _) _ _ _ _
  refine hdiff.bind fun changes => ?_
  split
  · exact isPermanent_ok _
  · exact ((heap.isPermanent_snapshotOf _ _).map _).bind fun identity => isPermanent_ok _

/-- Finding out what to send fails for good. -/
theorem Sweep.isPermanent_prepare (heap : Heap) (t : Tracked) :
    IsPermanent (Sweep.prepare heap t) :=
  (heap.isPermanent_read _).bind fun _ => (t.isPermanent_pending? heap).bind fun _ =>
    isPermanent_ok _

theorem Filter.isPermanent_compile (es : List String) : IsPermanent (Filter.compile es) := by
  intro e he
  obtain ⟨expression, -, reason, rfl⟩ := Filter.compile_eq_error he
  rfl

/-- Putting the request of a read together fails for good. -/
theorem Read.isPermanent_request (read : Read) : IsPermanent read.request := by
  intro e he
  obtain ⟨q, -, hcompile⟩ := Read.compile_of_request_eq_error he
  exact Filter.isPermanent_compile _ e hcompile

end Permanent

namespace Http

/-! ## Requests that can be built -/

/-- The headers of a request can be sent: those it comes with, and the token, unless it has an
authorization of its own. -/
structure Endpoint.Builds (e : Endpoint) (r : Request) : Prop where
  headers : ∀ h ∈ r.headers, Header.isName h.1 = true ∧ Header.isValue h.2 = true
  token : Outgoing.isAuthorized r = false → ∀ token, e.token = some token →
    Header.isValue token = true

namespace Header

variable {name value reason : String} {headers : List (String × String)}

theorem exists_make_iff :
    (∃ h, make name value = .ok h) ↔ isName name = true ∧ isValue value = true := by
  unfold make
  cases isName name <;> cases isValue value <;> simp

/-- What can be wrong with a header. -/
theorem make_eq_error (h : make name value = .error reason) :
    reason = badName ∨ reason = badValue := by
  unfold make at h
  split at h
  · cases h
    exact .inl rfl
  · split at h <;> cases h
    exact .inr rfl

theorem isValue_append (s t : String) : isValue (s ++ t) = (isValue s && isValue t) := by
  simp [isValue, String.toList_append]

theorem exists_checkHeaders_iff : (∃ hs, Outgoing.checkHeaders headers = .ok hs) ↔
    ∀ h ∈ headers, isName h.1 = true ∧ isValue h.2 = true := by
  constructor
  · rintro ⟨hs, hok⟩ h hh
    obtain ⟨made, -, hmade⟩ := exists_of_mem hok hh
    exact exists_make_iff.1 ⟨made, hmade⟩
  · intro hall
    exact exists_mapM fun h hh => exists_make_iff.2 (hall h hh)

theorem checkHeaders_eq_error (h : Outgoing.checkHeaders headers = .error reason) :
    reason = badName ∨ reason = badValue := by
  obtain ⟨header, -, hmade⟩ := exists_of_mapM_eq_error h
  exact make_eq_error hmade

end Header

/-- Base64 is made of characters that may stand in a header. -/
theorem Base64.isValueChar_sextet (n : Nat) : Header.isValueChar (sextet n) = true := by
  rcases Nat.lt_or_ge n 64 with hlt | hge
  · have hall : ∀ n < 64, Header.isValueChar (sextet n) = true := by decide +kernel
    exact hall n hlt
  · have hlast : sextet n = '/' := by
      unfold sextet
      rw [if_neg (by omega), if_neg (by omega), if_neg (by omega), if_neg (by omega)]
    rw [hlast]
    rfl

theorem Base64.isValue_encode (bytes : List UInt8) :
    ∀ c ∈ encode bytes, Header.isValueChar c = true := by
  have hquartet : ∀ a b c, ∀ x ∈ quartet a b c, Header.isValueChar x = true := by
    intro a b c x hx
    simp only [quartet, List.mem_cons, List.not_mem_nil, or_false] at hx
    rcases hx with rfl | rfl | rfl | rfl <;> exact isValueChar_sextet _
  have hfill : ∀ {n : Nat}, ∀ x ∈ List.replicate n '=', Header.isValueChar x = true := by
    intro n x hx
    rw [List.eq_of_mem_replicate hx]
    rfl
  induction bytes using encode.induct with
  | case1 => exact List.forall_mem_nil _
  | case2 a =>
    intro x hx
    rcases List.mem_append.1 hx with hx | hx
    · exact hquartet _ _ _ x (List.mem_of_mem_take hx)
    · exact hfill (n := 2) x hx
  | case3 a b =>
    intro x hx
    rcases List.mem_append.1 hx with hx | hx
    · exact hquartet _ _ _ x (List.mem_of_mem_take hx)
    · exact hfill (n := 1) x hx
  | case4 a b c rest ih =>
    intro x hx
    rcases List.mem_append.1 hx with hx | hx
    · exact hquartet _ _ _ x hx
    · exact ih x hx

namespace Endpoint

variable {e : Endpoint} {r : Request} {reason : String}

/-- User info can always be sent. -/
theorem address_headers (u : Url) : ∀ h ∈ (Outgoing.address u).2,
    Header.isName h.1 = true ∧ Header.isValue h.2 = true := by
  unfold Outgoing.address
  split
  · exact List.forall_mem_nil _
  · rename_i credentials hcredentials
    intro h hh
    obtain rfl := List.mem_singleton.1 hh
    have hencoded : ∀ bytes, Header.isValue (String.ofList (Base64.encode bytes)) = true := by
      intro bytes
      rw [Header.isValue, String.toList_ofList, List.all_eq_true]
      exact Base64.isValue_encode bytes
    have hprefix : Header.isValue "Basic " = true := by decide
    refine ⟨(by decide : Header.isName "authorization" = true), ?_⟩
    rw [Outgoing.basicHeader, Header.isValue_append, hprefix, hencoded]
    rfl

/-- The token can be sent, unless the request has an authorization of its own. -/
theorem bearer_headers (e : Endpoint) (r : Request) :
    (∀ h ∈ Outgoing.bearerHeader e r, Header.isName h.1 = true ∧ Header.isValue h.2 = true) ↔
      (Outgoing.isAuthorized r = false → ∀ token, e.token = some token →
        Header.isValue token = true) := by
  have hname : Header.isName "authorization" = true := by decide
  have hprefix : Header.isValue "Bearer " = true := by decide
  unfold Outgoing.bearerHeader
  cases Outgoing.isAuthorized r <;> cases e.token <;> simp [Header.isValue_append, hname, hprefix]

/-- The headers that a request is sent with, not yet checked. -/
def headers (e : Endpoint) (r : Request) : List (String × String) :=
  (Outgoing.address (e.baseUrl.push r.segments)).2 ++ [("content-type", "application/json")] ++
    Outgoing.bearerHeader e r ++ r.headers

theorem prepare_eq (e : Endpoint) (r : Request) :
    Outgoing.prepare e r = (Outgoing.checkHeaders (e.headers r)).map fun headers =>
      { method := r.method
        url := (Outgoing.address (e.baseUrl.push r.segments)).1.addQuery r.query
        headers, body := r.body.map Json.text, timeout := r.timeout } := by
  unfold Outgoing.prepare headers
  dsimp only
  cases Outgoing.checkHeaders _ <;> rfl

/-- **A request can be built** exactly when its headers can be sent. -/
theorem builds_iff : e.Builds r ↔ ∃ o, Outgoing.prepare e r = .ok o := by
  have hcontent : Header.isName "content-type" = true ∧ Header.isValue "application/json" = true := by
    decide
  have hall : (∀ h ∈ e.headers r, Header.isName h.1 = true ∧ Header.isValue h.2 = true) ↔
      e.Builds r := by
    simp only [headers, List.forall_mem_append, List.forall_mem_singleton, bearer_headers]
    exact ⟨fun ⟨⟨_, htoken⟩, hheaders⟩ => ⟨hheaders, htoken⟩,
      fun h => ⟨⟨⟨address_headers _, hcontent⟩, h.token⟩, h.headers⟩⟩
  rw [← hall, ← Header.exists_checkHeaders_iff, prepare_eq]
  simp only [map_eq_ok]
  exact ⟨fun ⟨hs, h⟩ => ⟨_, hs, h, rfl⟩, fun ⟨_, hs, h, _⟩ => ⟨hs, h⟩⟩

theorem prepare_eq_error (h : Outgoing.prepare e r = .error reason) :
    reason = Header.badName ∨ reason = Header.badValue := by
  rw [prepare_eq, map_eq_error] at h
  exact Header.checkHeaders_eq_error h

/-- A change of a row can be built when the token can be sent. -/
theorem builds_change_iff {collection id : String} {changes : Json} :
    e.Builds (.change collection id changes) ↔
      ∀ token, e.token = some token → Header.isValue token = true :=
  ⟨fun h => h.token rfl, fun h => ⟨List.forall_mem_nil _, fun _ => h⟩⟩

/-! ## What the network is handed -/

/-- The gateway over an endpoint, which lists what the network is handed, oldest first. -/
def recorder (e : Endpoint) (network : Network) : Gateway (List Outgoing) where
  send r world :=
    match Outgoing.prepare e r with
    | .error _ => (e.send network r, world)
    | .ok o => (e.send network r, { world with far := world.far ++ [o.withDefaults e] })
  handOver collection _ _ world := (.error (AccessorTable.missing collection), world)

/-- A request that cannot be built is not sent, and fails as a failure of the link. -/
theorem recorder_of_not_builds (h : ¬e.Builds r) :
    ∃ reason, (reason = Header.badName ∨ reason = Header.badValue) ∧ ∀ network world,
      (e.recorder network).send r world = (.error (.transport (.malformed reason)), world) := by
  cases hprepare : Outgoing.prepare e r with
  | ok o => exact absurd (builds_iff.2 ⟨o, hprepare⟩) h
  | error reason =>
    refine ⟨reason, prepare_eq_error hprepare, fun network world => ?_⟩
    simp only [recorder, hprepare, send]

/-- Any other is handed over, and fails only when the network does. -/
theorem recorder_of_builds (h : e.Builds r) :
    ∃ o, ∀ network world,
      ((e.recorder network).send r world).2 = { world with far := world.far ++ [o] } ∧
      ∀ err, ((e.recorder network).send r world).1 = .error err →
        ∃ url why, network o = .error why ∧ err = .transport (.unreachable url why) := by
  obtain ⟨o, hprepare⟩ := builds_iff.1 h
  refine ⟨o.withDefaults e, fun network world => ⟨?_, fun err herr => ?_⟩⟩
  · simp only [recorder, hprepare]
  · simp only [recorder, hprepare, send, deliver] at herr
    cases hnetwork : network (o.withDefaults e) with
    | ok response =>
      simp only [hnetwork] at herr
      cases herr
    | error why =>
      simp only [hnetwork] at herr
      cases herr
      exact ⟨_, why, rfl, rfl⟩

/-! ## Commits that send nothing -/

/-- What becomes of a PATCH: it is handed over, or it cannot be built because of the token, or its
collection has an accessor that is not there. -/
theorem patch_recorder (e : Endpoint) (a : Accessor) (id : String) (changes : ChangeSet) :
    (∃ o, ∀ network world, ((e.recorder network).patch a id changes world).2 =
      { world with far := world.far ++ [o] }) ∨
    ((∃ token, e.token = some token ∧ Header.isValue token = false) ∧
      ∃ reason, ∀ network world, (e.recorder network).patch a id changes world =
        (.error (.transport (.malformed reason)), world)) ∨
    ∃ collection, ∀ network world, (e.recorder network).patch a id changes world =
      (.error (AccessorTable.missing collection), world) := by
  have hrow : ∀ collection,
      (∃ o, ∀ network world, ((e.recorder network).patchRow collection id changes world).2 =
        { world with far := world.far ++ [o] }) ∨
      (∃ token, e.token = some token ∧ Header.isValue token = false) ∧
        ∃ reason, ∀ network world, (e.recorder network).patchRow collection id changes world =
          (.error (.transport (.malformed reason)), world) := by
    intro collection
    by_cases hbuilds : e.Builds (.change collection id changes.toJson)
    · obtain ⟨o, ho⟩ := recorder_of_builds hbuilds
      refine .inl ⟨o, fun network world => ?_⟩
      rw [← (ho network world).1, Gateway.patchRow]
      rcases (e.recorder network).send (.change collection id changes.toJson) world with
        ⟨_ | response, sent⟩ <;> rfl
    · obtain ⟨reason, -, hsend⟩ := recorder_of_not_builds hbuilds
      refine .inr ⟨?_, reason, fun network world => ?_⟩
      · simpa [builds_change_iff] using hbuilds
      · simp only [Gateway.patchRow, hsend]
  cases a with
  | remote s => exact (hrow s.collection).imp_right .inl
  | untyped collection => exact (hrow collection).imp_right .inl
  | custom collection => exact .inr (.inr ⟨collection, fun network world => rfl⟩)

/-- A commit failed because a PATCH cannot be built. -/
def RefusesPatch (e : Endpoint) (err : Error) : Prop :=
  (∃ token, e.token = some token ∧ Header.isValue token = false) ∧
    ∃ collection id reason, err = .persistence collection id (.transport (.malformed reason))

/-- A sweep that sends nothing changes nothing, on whatever network. Its failures are permanent,
except that a PATCH cannot be built. -/
structure SendsNothing (e : Endpoint) (network : Network) (ts : List Tracked)
    (world : World (List Outgoing)) : Prop where
  records : (Sweep.run (e.recorder network) ts world).records = ts
  again : ∀ network',
    Sweep.run (e.recorder network') ts world = Sweep.run (e.recorder network) ts world
  retryable : ∀ err, (Sweep.run (e.recorder network) ts world).result = .error err →
    (err.isRetryable = true ↔ e.RefusesPatch err)
  world : (Sweep.run (e.recorder network) ts world).world = world

variable {network : Network} {ts : List Tracked} {world : World (List Outgoing)}

/-- What was handed over stays listed. -/
theorem isPrefix_run (e : Endpoint) (network : Network) (ts : List Tracked)
    (world : World (List Outgoing)) :
    world.far <+: (Sweep.run (e.recorder network) ts world).world.far := by
  have hpatch : ∀ (a : Accessor) id changes (world : World (List Outgoing)),
      world.far <+: ((e.recorder network).patch a id changes world).2.far := by
    intro a id changes world
    rcases e.patch_recorder a id changes with ⟨o, ho⟩ | ⟨-, reason, hmalformed⟩ | ⟨_, hmissing⟩
    · rw [ho]
      exact List.prefix_append _ _
    · simp [hmalformed]
    · simp [hmissing]
  induction ts, world using Sweep.run.induct (e.recorder network) with
  | case1 world => exact List.prefix_rfl
  | case2 t ts world err h =>
    rw [Sweep.run_of_failed h]
    exact List.prefix_rfl
  | case3 t ts world h ih => rwa [Sweep.run_of_clean h, Sweep.keep]
  | case4 t ts world p candidate h a world' hp ih =>
    rw [Sweep.run_of_acknowledged h hp, Sweep.advance]
    have hfirst := hpatch t.owner p.identity p.changes world
    rw [hp] at hfirst
    exact hfirst.trans ih
  | case5 t ts world p candidate h err world' hp =>
    rw [Sweep.run_of_refused h hp, Sweep.stopped]
    have hfirst := hpatch t.owner p.identity p.changes world
    rwa [hp] at hfirst

theorem RefusesPatch.isRetryable {err : Error} (h : e.RefusesPatch err) :
    err.isRetryable = true := by
  obtain ⟨-, collection, id, reason, rfl⟩ := h
  rfl

theorem retryable_iff_of_permanent {err : Error} (h : err.isRetryable = false) :
    err.isRetryable = true ↔ e.RefusesPatch err :=
  ⟨fun hretryable => absurd (h.symm.trans hretryable) Bool.false_ne_true, fun hrefuses =>
    hrefuses.isRetryable⟩

/-- A sweep that hands nothing over sends nothing: an acknowledged PATCH was handed over, so there
is none, and a PATCH that fails was either handed over or leaves the world as it was. -/
theorem sendsNothing_of_far_eq
    (hfar : (Sweep.run (e.recorder network) ts world).world.far = world.far) :
    e.SendsNothing network ts world := by
  induction ts, world using Sweep.run.induct (e.recorder network) with
  | case1 world =>
    refine { records := rfl, again := fun _ => rfl, retryable := ?_, world := rfl }
    rintro _ ⟨⟩
  | case2 t ts world err h =>
    have hrun : ∀ network, Sweep.run (e.recorder network) (t :: ts) world =
        Sweep.stopped err (t :: ts) world := fun network => Sweep.run_of_failed h
    constructor <;> simp only [hrun, Sweep.stopped, implies_true]
    rintro _ ⟨⟩
    exact retryable_iff_of_permanent (Sweep.isPermanent_prepare world.heap t err h)
  | case3 t ts world h ih =>
    have hrun : ∀ network, Sweep.run (e.recorder network) (t :: ts) world =
        (Sweep.run (e.recorder network) ts world).keep t := fun network => Sweep.run_of_clean h
    rw [hrun] at hfar
    obtain ⟨hrecords, hagain, hretryable, hworld⟩ := ih hfar
    constructor <;> simp only [hrun, Sweep.keep]
    · rw [hrecords]
    · intro network'
      rw [hagain]
    · exact hretryable
    · exact hworld
  | case4 t ts world p candidate h a world' hp ih =>
    rcases e.patch_recorder t.owner p.identity p.changes with
      ⟨o, ho⟩ | ⟨-, reason, hmalformed⟩ | ⟨_, hmissing⟩
    · have hworld : world' = { world with far := world.far ++ [o] } := by rw [← ho network, hp]
      have hlisted := (e.isPrefix_run network ts world').length_le
      rw [Sweep.run_of_acknowledged h hp, Sweep.advance] at hfar
      rw [hfar, hworld, List.length_append, List.length_singleton] at hlisted
      exact absurd hlisted (Nat.not_succ_le_self _)
    · rw [hmalformed] at hp
      cases hp
    · rw [hmissing] at hp
      cases hp
  | case5 t ts world p candidate h err world' hp =>
    rcases e.patch_recorder t.owner p.identity p.changes with
      ⟨o, ho⟩ | ⟨htoken, reason, hmalformed⟩ | ⟨_, hmissing⟩
    · have hworld : world' = { world with far := world.far ++ [o] } := by rw [← ho network, hp]
      rw [Sweep.run_of_refused h hp, Sweep.stopped, hworld] at hfar
      exact absurd hfar (by simp)
    · have hrun := fun network => show Sweep.run (e.recorder network) (t :: ts) world = _ from
        Sweep.run_of_refused h (hmalformed network world)
      constructor <;> simp only [hrun, Sweep.stopped, implies_true]
      rintro _ ⟨⟩
      exact ⟨fun _ => ⟨htoken, _, _, reason, rfl⟩, RefusesPatch.isRetryable⟩
    · have hrun := fun network => show Sweep.run (e.recorder network) (t :: ts) world = _ from
        Sweep.run_of_refused h (hmissing network world)
      constructor <;> simp only [hrun, Sweep.stopped, implies_true]
      rintro _ ⟨⟩
      exact retryable_iff_of_permanent rfl

/-! ## Failures before anything is sent -/

/-- What is known of failures before the network is handed anything, by requests on their own, by
reads and by commits. -/
structure Unsent (e : Endpoint) (u : UnitOfWork) (world : World (List Outgoing)) : Prop where
  /-- A request is not handed over exactly when it cannot be built. -/
  handed : ∀ r network, ((e.recorder network).send r world).2.far = world.far ↔ ¬e.Builds r
  /-- Then it fails in the same way on every network, as a failure of the link. -/
  malformed : ∀ r, ¬e.Builds r → ∃ reason, (reason = Header.badName ∨ reason = Header.badValue) ∧
    ∀ network, (e.recorder network).send r world = (.error (.transport (.malformed reason)), world)
  /-- Any other failure is one of the network, which was handed the request. -/
  sent : ∀ r network err, e.Builds r → ((e.recorder network).send r world).1 = .error err →
    ∃ o url why, ((e.recorder network).send r world).2 = { world with far := world.far ++ [o] } ∧
      network o = .error why ∧ err = .transport (.unreachable url why)
  /-- A read that fails without anything sent has done nothing and fails so on every network. It is
  retryable exactly when its request cannot be built. -/
  reads : ∀ (read : Read) network err,
    (read.run u (e.recorder network) world).result = .error err →
    (read.run u (e.recorder network) world).world.far = world.far →
    (∀ network', read.run u (e.recorder network') world = u.failed err world) ∧
      (err.isRetryable = true ↔ ∃ r, read.request = .ok r ∧ ¬e.Builds r)
  /-- A commit that fails without anything sent has done nothing and fails so on every network. It
  is retryable exactly when a PATCH cannot be built. -/
  commits : ∀ network err, (u.commit (e.recorder network) world).result = .error err →
    (u.commit (e.recorder network) world).world.far = world.far →
    (u.commit (e.recorder network) world).tracker = u ∧
      (u.commit (e.recorder network) world).world = world ∧
      (∀ network', u.commit (e.recorder network') world = u.commit (e.recorder network) world) ∧
      (err.isRetryable = true ↔ e.RefusesPatch err)

variable {u : UnitOfWork} {err : Error}

theorem unsent_read {read : Read} (h : (read.run u (e.recorder network) world).result = .error err)
    (hfar : (read.run u (e.recorder network) world).world.far = world.far) :
    (∀ network', read.run u (e.recorder network') world = u.failed err world) ∧
      (err.isRetryable = true ↔ ∃ r, read.request = .ok r ∧ ¬e.Builds r) := by
  cases hrequest : read.request with
  | error err' =>
    have hrun : ∀ network, read.run u (e.recorder network) world = u.failed err' world :=
      fun network => Read.run_of_request_error hrequest
    rw [hrun] at h
    cases h
    exact ⟨hrun, by simp [read.isPermanent_request err hrequest]⟩
  | ok r =>
    by_cases hbuilds : e.Builds r
    · obtain ⟨o, ho⟩ := recorder_of_builds hbuilds
      rw [Read.far_run hrequest, (ho network world).1] at hfar
      exact absurd hfar (by simp)
    · obtain ⟨reason, -, hsend⟩ := recorder_of_not_builds hbuilds
      have hrun : ∀ network, read.run u (e.recorder network) world =
          u.failed (.transport (.malformed reason)) world := by
        intro network
        rw [Read.run_of_send_error hrequest (congrArg Prod.fst (hsend network world)), hsend]
      rw [hrun] at h
      cases h
      exact ⟨hrun, iff_of_true rfl ⟨r, rfl, hbuilds⟩⟩

theorem unsent_commit (h : (u.commit (e.recorder network) world).result = .error err)
    (hfar : (u.commit (e.recorder network) world).world.far = world.far) :
    (u.commit (e.recorder network) world).tracker = u ∧
      (u.commit (e.recorder network) world).world = world ∧
      (∀ network', u.commit (e.recorder network') world = u.commit (e.recorder network) world) ∧
      (err.isRetryable = true ↔ e.RefusesPatch err) := by
  rw [UnitOfWork.world_commit] at hfar
  obtain ⟨hrecords, hagain, hretryable, hworld⟩ := sendsNothing_of_far_eq hfar
  have hsame : ∀ network',
      u.commit (e.recorder network') world = u.commit (e.recorder network) world := by
    intro network'
    rw [UnitOfWork.commit, hagain network']
    rfl
  cases hresult : (Sweep.run (e.recorder network) u.records world).result with
  | ok n =>
    rw [UnitOfWork.commit_of_ok hresult] at h
    cases h
  | error err' =>
    rw [UnitOfWork.commit_of_error hresult] at h
    cases h
    refine ⟨?_, ?_, hsame, hretryable err hresult⟩
    · rw [UnitOfWork.commit_of_error hresult, UnitOfWork.aborted, hrecords]
    · rw [UnitOfWork.world_commit, hworld]

/-- **Which failures before anything is sent are retryable**: just those of requests that cannot be
built. -/
theorem retryable_unsent_iff (e : Endpoint) (u : UnitOfWork) (world : World (List Outgoing)) :
    e.Unsent u world where
  handed r network := by
    by_cases hbuilds : e.Builds r
    · obtain ⟨o, ho⟩ := recorder_of_builds hbuilds
      simp [(ho network world).1, hbuilds]
    · obtain ⟨reason, -, hsend⟩ := recorder_of_not_builds hbuilds
      simp [hsend, hbuilds]
  malformed r hbuilds := by
    obtain ⟨reason, hreason, hsend⟩ := recorder_of_not_builds hbuilds
    exact ⟨reason, hreason, fun network => hsend network world⟩
  sent r network err hbuilds herr := by
    obtain ⟨o, ho⟩ := recorder_of_builds hbuilds
    obtain ⟨url, why, hnetwork, rfl⟩ := (ho network world).2 err herr
    exact ⟨o, url, why, (ho network world).1, hnetwork, rfl⟩
  reads _ _ _ h hfar := unsent_read h hfar
  commits _ _ h hfar := unsent_commit h hfar

/-- Settings with a token that cannot be sent. -/
def torn : Settings := { baseUrl := "http://cms.local:8055/api/", token := some "a\nb" }

/-- Whether the changes of two tags fail in a way that is retryable, and how many requests are
handed over. -/
def attempt? (settings : Settings) : Option (Bool × Nat) := do
  let e ← (ofSettings settings).toOption
  let o := Session.edited.tracker.commit (e.recorder .unreachable) ⟨Session.edited.heap, []⟩
  match o.result with
  | .ok _ => none
  | .error err => return (err.isRetryable, o.world.far.length)

/-- A token with a line break lets no commit send anything, and each failure is retryable. -/
theorem retryable_unsent_torn :
    ∃ e err, ofSettings torn = .ok e ∧ err.isRetryable = true ∧ e.RefusesPatch err ∧
      ∀ network, (Session.edited.tracker.commit (e.recorder network)
        ⟨Session.edited.heap, []⟩).result = .error err := by
  have hattempt : attempt? torn = some (true, 0) := by decide +kernel
  unfold attempt? at hattempt
  obtain ⟨e, he, hattempt⟩ := Option.bind_eq_some_iff.1 hattempt
  dsimp only at hattempt
  split at hattempt
  · cases hattempt
  · rename_i err herr
    simp only [Option.pure_def, Option.some.injEq, Prod.mk.injEq, List.length_eq_zero_iff]
      at hattempt
    obtain ⟨-, -, hagain, hretryable⟩ :=
      (e.retryable_unsent_iff Session.edited.tracker ⟨Session.edited.heap, []⟩).commits _ err herr
        hattempt.2
    refine ⟨e, err, toOption_eq_some.1 he, hattempt.1, hretryable.1 hattempt.1, fun network => ?_⟩
    rw [hagain network, herr]

/-- A header with a line break is never sent, and the failure is retryable, also where it is the
reason for another one. -/
theorem not_permanent_malformed :
    ∃ e err, ofSettings { baseUrl := "http://cms.local:8055/api/" } = .ok e ∧
      (∀ network world, (e.recorder network).send
        ((Request.rows "product").withHeader "X" "bad\r\nvalue") world = (.error err, world)) ∧
      err.isRetryable = true ∧
      ∀ collection id, (Error.persistence collection id err).isRetryable = true := by
  have hsome : (ofSettings { baseUrl := "http://cms.local:8055/api/" }).toOption.isSome = true := by
    decide +kernel
  obtain ⟨e, he⟩ := Option.isSome_iff_exists.1 hsome
  have hbuilds : ¬e.Builds ((Request.rows "product").withHeader "X" "bad\r\nvalue") := by
    intro h
    have hvalue := (h.headers ("X", "bad\r\nvalue") List.mem_cons_self).2
    revert hvalue
    decide
  obtain ⟨reason, -, hsend⟩ := recorder_of_not_builds hbuilds
  exact ⟨e, _, toOption_eq_some.1 he, hsend, rfl, fun _ _ => rfl⟩

end Endpoint

end Http

end ItemClient
