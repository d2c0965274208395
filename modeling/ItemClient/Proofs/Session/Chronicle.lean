import ItemClient.Proofs.Session.Basic

/-!
# Chronicles

A session along with what an onlooker wrote down of it: the live entities as they were when the
current snapshot of each was taken, and all change sets that were acknowledged. Neither is known
to the session; every session is the session of some chronicle
(`Session.Reachable.exists_chronicle`).

**Invariant** (`Chronicle.Inv`). A snapshot is the record of its entity in the heap in which it was
taken, and that heap has become the present one by changes of the program. A sweep keeps this
(`Sweep.takenIn_run`): a snapshot is taken anew at its turn, exactly when the PATCH is
acknowledged.
-/

namespace ItemClient

/-- The snapshot was taken in `past`, and since then the program has changed its entities. -/
structure Tracked.TakenIn (past heap : Heap) (t : Tracked) : Prop where
  read : past.read t.entity = .ok t.original
  changes : past.Changes heap

theorem Tracked.TakenIn.mono {past heap heap' : Heap} {t : Tracked} (h : t.TakenIn past heap)
    (hchanges : heap.Changes heap') : t.TakenIn past heap' :=
  ⟨h.read, h.changes.trans hchanges⟩

/-! ## Snapshots that a sweep takes -/

namespace Sweep

variable {σ : Type}

/-- Whether what is sent at a turn is acknowledged. -/
def Turn.isAcknowledged (g : Gateway σ) (turn : Turn σ) : Bool :=
  (turn.patch? g).any fun x => x.answer.toBool

/-- The live entities when a sweep takes a snapshot of an entity, if it does. -/
def taken? (g : Gateway σ) (ts : List Tracked) (world : World σ) (id : EntityId) : Option Heap :=
  ((turns g ts world).find? fun turn => turn.tracked.entity = id && turn.isAcknowledged g).map
    (·.world.heap)

variable {g : Gateway σ} {t : Tracked} {ts : List Tracked} {world world' : World σ}
  {p : Pending} {candidate : Snapshot} {e : Error} {id : EntityId}

theorem taken?_of_failed (h : prepare world.heap t = .error e) :
    taken? g (t :: ts) world id = none := by
  simp [taken?, turns_of_failed h, Turn.isAcknowledged, Turn.patch?, Turn.pending?, h,
    Except.toOption]

theorem taken?_of_clean (h : prepare world.heap t = .ok none) :
    taken? g (t :: ts) world id = taken? g ts world id := by
  simp [taken?, turns_of_clean h, Turn.isAcknowledged, Turn.patch?, Turn.pending?, h,
    Except.toOption]

theorem taken?_of_acknowledged {a : Unit} (h : prepare world.heap t = .ok (some (p, candidate)))
    (hp : g.patch t.owner p.identity p.changes world = (.ok a, world')) :
    taken? g (t :: ts) world id =
      if t.entity = id then some world.heap else taken? g ts world' id := by
  by_cases hid : t.entity = id <;>
    simp [taken?, turns_of_acknowledged h hp, Turn.isAcknowledged, Turn.patch?, Turn.pending?, h,
      hp, Except.toOption, Except.toBool, hid]

theorem taken?_of_refused (h : prepare world.heap t = .ok (some (p, candidate)))
    (hp : g.patch t.owner p.identity p.changes world = (.error e, world')) :
    taken? g (t :: ts) world id = none := by
  simp [taken?, turns_of_refused h hp, Turn.isAcknowledged, Turn.patch?, Turn.pending?, h, hp,
    Except.toOption, Except.toBool]

/-- A sweep takes snapshots of tracked entities only. -/
theorem taken?_of_notMem (h : id ∉ ts.map Tracked.entity) : taken? g ts world id = none := by
  unfold taken?
  rw [Option.map_eq_none_iff, List.find?_eq_none]
  intro turn hturn hid
  simp only [Bool.and_eq_true, decide_eq_true_eq] at hid
  exact h (hid.1 ▸ List.mem_map_of_mem (mem_of_mem_turns hturn))

/-- **A sweep takes snapshots as it goes.** What was taken before stays for the entities whose
PATCH is not acknowledged. -/
theorem takenIn_run {taken : EntityId → Heap} (hg : g.Orderly)
    (hnodup : (ts.map Tracked.entity).Nodup)
    (hts : ∀ t ∈ ts, t.TakenIn (taken t.entity) world.heap) :
    ∀ t ∈ (run g ts world).records,
      t.TakenIn ((taken? g ts world t.entity).getD (taken t.entity))
        (run g ts world).world.heap := by
  induction ts, world using run.induct g with
  | case1 world => simp [run]
  | case2 t ts world e h =>
    rw [run_of_failed h]
    simp only [taken?_of_failed h]
    exact hts
  | case3 t ts world h ih =>
    rw [List.map_cons, List.nodup_cons] at hnodup
    rw [run_of_clean h]
    simp only [taken?_of_clean h]
    intro t' ht'
    rcases List.mem_cons.1 ht' with rfl | ht'
    · rw [taken?_of_notMem hnodup.1]
      exact (hts _ List.mem_cons_self).mono (changes_run hg ts world)
    · exact ih hnodup.2 (fun t ht => hts t (List.mem_cons_of_mem _ ht)) t' ht'
  | case4 t ts world p candidate h a world' hp ih =>
    rw [List.map_cons, List.nodup_cons] at hnodup
    rw [run_of_acknowledged h hp]
    simp only [taken?_of_acknowledged h hp]
    have hchanges := changes_patch hg hp
    intro t' ht'
    rcases List.mem_cons.1 ht' with rfl | ht'
    · rw [if_pos rfl]
      exact ⟨(Tracked.prepare_eq_some h).1.read, hchanges.trans (changes_run hg ts world')⟩
    · have hmem : t'.entity ∈ ts.map Tracked.entity :=
        entities_run g ts world' ▸ List.mem_map_of_mem ht'
      have hne : t.entity ≠ t'.entity := fun he => hnodup.1 (he ▸ hmem)
      rw [if_neg hne]
      exact ih hnodup.2 (fun t ht => (hts t (List.mem_cons_of_mem _ ht)).mono hchanges) t' ht'
  | case5 t ts world p candidate h e world' hp =>
    rw [run_of_refused h hp]
    simp only [taken?_of_refused h hp]
    exact fun t' ht' => (hts t' ht').mono (changes_patch hg hp)

end Sweep

/-! ## Chronicles -/

/-- A session and what was written down of it. -/
structure Chronicle where
  session : Session
  /-- The live entities when the current snapshot of an entity was taken. -/
  taken : EntityId → Heap := fun _ => {}
  /-- The change sets that were acknowledged, oldest first. -/
  heard : List (EntityId × ChangeSet) := []

namespace Chronicle

variable {c c' : Chronicle}

/-- Track what some roots reach, taking snapshots of what was not tracked. -/
def registerAll (c : Chronicle) (roots : List EntityId) : Chronicle :=
  let tracker := (c.session.tracker.registerAll c.session.heap roots).2.1
  { c with
    session := c.session.registerAll roots
    taken := fun id =>
      if tracker.isTracked id && !c.session.tracker.isTracked id then c.session.heap
      else c.taken id }

/-- Send all changes, taking snapshots as they are acknowledged. -/
def commit {σ : Type} (c : Chronicle) (g : Gateway σ) (far : σ) : Chronicle :=
  let records := c.session.tracker.records
  { session := c.session.commit g far
    taken := fun id => (Sweep.taken? g records (c.session.world far) id).getD (c.taken id)
    heard := c.heard ++ Sweep.acknowledged g records (c.session.world far) }

/-- One step of a session, written down. -/
inductive Step (c : Chronicle) : Chronicle → Prop
  | change {heap : Heap} : c.session.heap.Change heap →
      Step c { c with session := { c.session with heap } }
  | register (roots : List EntityId) : Step c (c.registerAll roots)
  | commit {σ : Type} {g : Gateway σ} (far : σ) : g.Orderly → Step c (c.commit g far)
  | reset : Step c { c with session := c.session.reset }

/-- A chronicle of some run of steps. -/
def Reachable (c : Chronicle) : Prop :=
  ∃ c₀, c₀.session.IsInitial ∧ Relation.ReflTransGen Step c₀ c

theorem Step.session (h : Step c c') : c.session.Step c'.session := by
  cases h with
  | change hchange => exact .change hchange
  | register roots => exact .register roots
  | commit far hg => exact .commit far hg
  | reset => exact .reset

theorem Reachable.session (h : c.Reachable) : c.session.Reachable := by
  obtain ⟨c₀, hinitial, hsteps⟩ := h
  exact ⟨c₀.session, hinitial, hsteps.lift Chronicle.session fun _ _ => Step.session⟩

theorem Reachable.tail (h : c.Reachable) (hstep : Step c c') : c'.Reachable := by
  obtain ⟨c₀, hinitial, hsteps⟩ := h
  exact ⟨c₀, hinitial, hsteps.tail hstep⟩

/-- Every snapshot was taken when the chronicle says. -/
def Inv (c : Chronicle) : Prop :=
  ∀ t ∈ c.session.tracker.records, t.TakenIn (c.taken t.entity) c.session.heap

theorem Inv.registerAll (inv : c.Inv) (roots : List EntityId) : (c.registerAll roots).Inv := by
  unfold Chronicle.registerAll Session.registerAll
  cases hresult : c.session.tracker.registerAll c.session.heap roots with
  | mk result rest =>
  obtain ⟨tracker, notices⟩ := rest
  cases result with
  | error e =>
    obtain rfl := UnitOfWork.registerAll_eq_error hresult
    simpa using inv
  | ok n =>
    obtain ⟨found, hfound, -, rfl⟩ := UnitOfWork.registerAll_eq_ok hresult
    intro t ht
    rcases List.mem_append.1 ht with ht | ht
    · have hold : c.session.tracker.isTracked t.entity = true :=
        UnitOfWork.isTracked_iff.2 (List.mem_map_of_mem ht)
      simpa [hold] using inv t ht
    · obtain ⟨d, hd, hentity, horiginal, -⟩ := Discovery.mem_track ht
      have hread : c.session.heap.read t.entity = .ok t.original := by
        rw [hentity, horiginal, (hfound.current d hd).original]
      have htaken : t.TakenIn c.session.heap c.session.heap := ⟨hread, .refl⟩
      simpa [hfound.isNew ht] using htaken

theorem Inv.commit {σ : Type} {g : Gateway σ} (inv : c.Inv) (hsession : c.session.Inv)
    (hg : g.Orderly) (far : σ) : (c.commit g far).Inv := by
  unfold Inv Chronicle.commit Session.commit
  cases hresult : (Sweep.run g c.session.tracker.records (c.session.world far)).result with
  | ok n =>
    rw [UnitOfWork.commit_of_ok hresult]
    intro t ht
    cases ht
  | error e =>
    rw [UnitOfWork.commit_of_error hresult]
    exact Sweep.takenIn_run hg hsession.nodup inv

/-- **Every step keeps the invariant.** -/
theorem Inv.step (inv : c.Inv) (hsession : c.session.Inv) (h : Step c c') : c'.Inv := by
  cases h with
  | change hchange => exact fun t ht => (inv t ht).mono (.single hchange)
  | register roots => exact inv.registerAll roots
  | commit far hg => exact inv.commit hsession hg far
  | reset =>
    intro t ht
    cases ht

/-- **The invariant holds of every chronicle.** -/
theorem Reachable.inv (h : c.Reachable) : c.Inv := by
  obtain ⟨c₀, hinitial, hsteps⟩ := h
  induction hsteps with
  | refl =>
    intro t ht
    rw [hinitial.records] at ht
    cases ht
  | tail hsteps hstep ih => exact ih.step (Reachable.session ⟨c₀, hinitial, hsteps⟩).inv hstep

end Chronicle

/-- A step of a session can be written down. -/
theorem Session.Step.exists_chronicle {c : Chronicle} {s : Session} (h : c.session.Step s) :
    ∃ c', c.Step c' ∧ c'.session = s := by
  cases h with
  | change hchange => exact ⟨_, .change hchange, rfl⟩
  | register roots => exact ⟨_, .register roots, rfl⟩
  | commit far hg => exact ⟨_, .commit far hg, rfl⟩
  | reset => exact ⟨_, .reset, rfl⟩

/-- **Every session is the session of a chronicle.** -/
theorem Session.Reachable.exists_chronicle {s : Session} (h : s.Reachable) :
    ∃ c : Chronicle, c.Reachable ∧ c.session = s := by
  obtain ⟨s₀, hinitial, hsteps⟩ := h
  induction hsteps with
  | refl => exact ⟨{ session := s₀ }, ⟨_, hinitial, .refl⟩, rfl⟩
  | tail _ hstep ih =>
    obtain ⟨c, hc, rfl⟩ := ih
    obtain ⟨c', hc', rfl⟩ := hstep.exists_chronicle
    exact ⟨c', hc.tail hc', rfl⟩

end ItemClient
