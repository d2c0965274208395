import Mathlib.Data.List.ReduceOption
import ItemClient.Proofs.Commit.Prepare

/-!
# Sweeps over entities that nobody edits

A gateway is quiet when the live entities stay as they are while changes are under way, at least
as long as the far end is calm. A sweep over a quiet gateway sends what waits to be sent, from the
start and in order, up to the first PATCH that is refused (`Sweep.Delivers`), and afterwards the
rest of it is what waits to be sent (`Sweep.run_resumes`): an acknowledged entity has nothing more
to send, and no other entity is touched.
-/

namespace ItemClient

/-- While the changes of a row are under way at a calm far end the live entities stay as they
are, and the far end stays calm. -/
def Gateway.Quiet {σ : Type} (g : Gateway σ) (calm : σ → Prop) : Prop :=
  ∀ (a : Accessor) (id : String) (changes : ChangeSet) (world : World σ), calm world.far →
    (g.patch a id changes world).2.heap = world.heap ∧ calm (g.patch a id changes world).2.far

/-! ## What waits to be sent -/

namespace Tracked

/-- What waits to be sent for tracked entities, in order. -/
def waiting (heap : Heap) (ts : List Tracked) : Result (List Pending) :=
  (ts.mapM (pending? heap)).map List.reduceOption

theorem pending_eq_waiting (u : UnitOfWork) (heap : Heap) :
    u.pending heap = waiting heap u.records := rfl

variable {heap : Heap} {t : Tracked} {ts : List Tracked}

theorem waiting_of_none (h : t.pending? heap = .ok none) :
    waiting heap (t :: ts) = waiting heap ts := by
  unfold waiting
  rw [List.mapM_cons, h]
  cases ts.mapM (pending? heap) <;> rfl

theorem waiting_of_some {p : Pending} (h : t.pending? heap = .ok (some p)) :
    waiting heap (t :: ts) = (waiting heap ts).map (p :: ·) := by
  unfold waiting
  rw [List.mapM_cons, h]
  cases ts.mapM (pending? heap) <;> rfl

/-- A tracked entity can be compared with its snapshot, now and when that has advanced. -/
structure IsReady (heap : Heap) (t : Tracked) : Prop where
  fits : t.Fits heap
  ready : heap.IsReady t.entity

/-- What is prepared of an entity that is ready. -/
theorem IsReady.exists_prepare (hheap : heap.WellFormed) (hsound : heap.IsSound)
    (h : t.IsReady heap) : ∃ o, Sweep.prepare heap t = .ok o := by
  obtain ⟨live, changes, hdiffers⟩ := h.fits.exists_differs hheap hsound
  exact ⟨_, prepare_eq_ok.2 ⟨live, changes, hdiffers, rfl⟩⟩

theorem exists_waiting (hheap : heap.WellFormed) (hsound : heap.IsSound)
    (hts : ∀ t ∈ ts, t.IsReady heap) : ∃ ps, waiting heap ts = .ok ps := by
  obtain ⟨os, hos⟩ := Result.exists_mapM fun t ht =>
    (hts t ht).fits.exists_pending? hheap hsound
  exact ⟨_, Result.map_eq_ok.2 ⟨os, hos, rfl⟩⟩

/-- An entity whose snapshot advanced to the record as it stands is still ready. -/
theorem IsReady.advance (hheap : heap.WellFormed) (h : t.IsReady heap) {live : Record EntityId}
    (hread : heap.read t.entity = .ok live) :
    ({ t with original := live } : Tracked).IsReady heap :=
  ⟨h.fits.advance hheap hread, h.ready⟩

/-- It has nothing to send. -/
theorem IsReady.pending?_advanced (hheap : heap.WellFormed) (hsound : heap.IsSound)
    (h : t.IsReady heap) {live : Record EntityId} (hread : heap.read t.entity = .ok live) :
    ({ t with original := live } : Tracked).pending? heap = .ok none := by
  obtain ⟨r, hr, hordinary⟩ := h.ready
  obtain rfl : live = r := Except.ok.inj (hread.symm.trans hr)
  exact Tracked.pending?_advanced hheap hsound hordinary hread

/-- What an entity that fits has to send is for the collection of its accessor. -/
theorem Fits.owner_eq {p : Pending} (h : t.Fits heap) (hp : t.pending? heap = .ok (some p)) :
    t.owner.collection = p.collection := by
  obtain ⟨live, changes, -, hsome⟩ := pending?_eq_ok.1 hp
  rw [(pendingOf_eq_some hsome.symm).1, h.collection, h.owner]

end Tracked

/-! ## Sweeps -/

/-- What was sent, if it was acknowledged. -/
def Patch.acknowledged? (x : Patch) : Option Pending :=
  match x.answer with
  | .ok _ => some x.pending
  | .error _ => none

namespace Sweep

/-- Of `todo` all is sent and acknowledged, or the part before the first entry that is refused;
`rest` is what is left, from that entry on. -/
inductive Delivers (todo : List Pending) : List Patch → Result Nat → List Pending → Prop
  | all {sent : List Patch} : todo = sent.map Patch.pending → (∀ x ∈ sent, x.answer = .ok ()) →
      Delivers todo sent (.ok sent.length) []
  | some {sent : List Patch} {x : Patch} {later : List Pending} {e : Error} :
      todo = sent.map Patch.pending ++ x.pending :: later → (∀ x ∈ sent, x.answer = .ok ()) →
      x.answer = .error e →
      Delivers todo (sent ++ [x]) (.error (.persistence x.pending.collection x.pending.identity e))
        (x.pending :: later)

/-- One more entry at the front is acknowledged. -/
theorem Delivers.cons {todo rest : List Pending} {sent : List Patch} {result : Result Nat}
    (h : Delivers todo sent result rest) (t : Tracked) (p : Pending) :
    Delivers (p :: todo) (⟨t, p, .ok ()⟩ :: sent) (result.map (· + 1)) rest := by
  cases h with
  | all htodo hsent =>
    refine .all (by rw [htodo]; rfl) fun x hx => ?_
    rcases List.mem_cons.1 hx with rfl | hx
    · rfl
    · exact hsent x hx
  | @some sent x later e htodo hsent hx =>
    refine @Delivers.some _ (⟨t, p, .ok ()⟩ :: sent) x later e (by rw [htodo]; rfl) ?_ hx
    intro y hy
    rcases List.mem_cons.1 hy with rfl | hy
    · rfl
    · exact hsent y hy

theorem Delivers.of_ok {todo rest : List Pending} {sent : List Patch} {n : Nat}
    (h : Delivers todo sent (.ok n) rest) :
    sent.map Patch.pending = todo ∧ (∀ x ∈ sent, x.answer = .ok ()) ∧ n = sent.length ∧
      rest = [] := by
  cases h with
  | all htodo hsent => exact ⟨htodo.symm, hsent, rfl, rfl⟩

theorem Delivers.of_error {todo rest : List Pending} {sent : List Patch} {e : Error}
    (h : Delivers todo sent (.error e) rest) :
    ∃ acknowledged x later source, sent = acknowledged ++ [x] ∧
      (∀ y ∈ acknowledged, y.answer = .ok ()) ∧ x.answer = .error source ∧
      todo = acknowledged.map Patch.pending ++ x.pending :: later ∧
      e = .persistence x.pending.collection x.pending.identity source ∧
      rest = x.pending :: later := by
  cases h with
  | some htodo hsent hx => exact ⟨_, _, _, _, rfl, hsent, hx, htodo, rfl, rfl⟩

theorem filterMap_acknowledged {sent : List Patch} (h : ∀ x ∈ sent, x.answer = .ok ()) :
    sent.filterMap Patch.acknowledged? = sent.map Patch.pending := by
  induction sent with
  | nil => rfl
  | cons x sent ih =>
    have hx : x.acknowledged? = .some x.pending := by
      unfold Patch.acknowledged?
      rw [h x List.mem_cons_self]
    rw [List.filterMap_cons_some hx, List.map_cons,
      ih fun y hy => h y (List.mem_cons_of_mem _ hy)]

/-- What is acknowledged and what is left make up all there was to send. -/
theorem Delivers.acknowledged {todo rest : List Pending} {sent : List Patch}
    {result : Result Nat} (h : Delivers todo sent result rest) :
    sent.filterMap Patch.acknowledged? ++ rest = todo := by
  cases h with
  | all htodo hsent => rw [filterMap_acknowledged hsent, List.append_nil, htodo]
  | @some sent x later e htodo hsent hx =>
    have hnone : [x].filterMap Patch.acknowledged? = [] := by
      simp [Patch.acknowledged?, hx]
    rw [List.filterMap_append, filterMap_acknowledged hsent, hnone, List.append_nil, htodo]

/-- What a sweep does when `todo` waits to be sent and nobody edits anything. -/
structure Resumes {σ : Type} (g : Gateway σ) (calm : σ → Prop) (ts : List Tracked)
    (world : World σ) (todo rest : List Pending) : Prop where
  waiting : Tracked.waiting world.heap ts = .ok todo
  delivers : Delivers todo (patches g ts world) (run g ts world).result rest
  /-- The part of it that was not acknowledged is what waits afterwards. -/
  rest : Tracked.waiting world.heap (run g ts world).records = .ok rest
  /-- Each PATCH goes to the accessor of its collection. -/
  owners : ∀ x ∈ patches g ts world, x.tracked.owner.collection = x.pending.collection
  heap : (run g ts world).world.heap = world.heap
  calm : calm (run g ts world).world.far
  ready : ∀ t ∈ (run g ts world).records, t.IsReady world.heap

section Cases

variable {σ : Type} {g : Gateway σ} {calm : σ → Prop} {t : Tracked} {ts : List Tracked}
  {world world' : World σ} {todo rest : List Pending} {p : Pending} {candidate : Snapshot}

theorem resumes_nil (hcalm : calm world.far) : Resumes g calm [] world [] [] where
  waiting := rfl
  delivers := .all rfl (by simp [patches, turns])
  rest := rfl
  owners := by simp [patches, turns]
  heap := rfl
  calm := hcalm
  ready := by simp [run]

theorem resumes_of_clean (h : prepare world.heap t = .ok none) (ht : t.IsReady world.heap)
    (hrest : Resumes g calm ts world todo rest) : Resumes g calm (t :: ts) world todo rest := by
  have hpending := Tracked.pending?_of_prepare_none h
  have hrun : run g (t :: ts) world = (run g ts world).keep t := run_of_clean h
  have hpatches : patches g (t :: ts) world = patches g ts world := patches_of_clean h
  constructor
  case waiting => exact (Tracked.waiting_of_none hpending).trans hrest.waiting
  case delivers => exact hrun ▸ hpatches ▸ hrest.delivers
  case rest =>
    rw [hrun]
    exact (Tracked.waiting_of_none hpending).trans hrest.rest
  case owners => exact hpatches ▸ hrest.owners
  case heap => exact hrun ▸ hrest.heap
  case calm => exact hrun ▸ hrest.calm
  case ready =>
    rw [hrun]
    intro t' ht'
    rcases List.mem_cons.1 ht' with rfl | ht'
    · exact ht
    · exact hrest.ready t' ht'

theorem resumes_of_acknowledged {a : Unit} (h : prepare world.heap t = .ok (some (p, candidate)))
    (hp : g.patch t.owner p.identity p.changes world = (.ok a, world'))
    (hsame : world'.heap = world.heap) (hheap : world.heap.WellFormed)
    (hsound : world.heap.IsSound) (ht : t.IsReady world.heap)
    (hrest : Resumes g calm ts world' todo rest) :
    Resumes g calm (t :: ts) world (p :: todo) rest := by
  have hpending := Tracked.pending?_of_prepare h
  have hread : world.heap.read t.entity = .ok candidate := (Tracked.prepare_eq_some h).1.read
  have hadvanced := ht.pending?_advanced hheap hsound hread
  have hrun : run g (t :: ts) world = _ := run_of_acknowledged h hp
  have hpatches : patches g (t :: ts) world = _ := patches_of_acknowledged h hp
  constructor
  case waiting =>
    rw [Tracked.waiting_of_some hpending, ← hsame, hrest.waiting]
    rfl
  case delivers =>
    rw [hrun, hpatches]
    exact hrest.delivers.cons t p
  case rest =>
    rw [hrun]
    exact (Tracked.waiting_of_none hadvanced).trans (hsame ▸ hrest.rest)
  case owners =>
    rw [hpatches]
    intro x hx
    rcases List.mem_cons.1 hx with rfl | hx
    · exact ht.fits.owner_eq hpending
    · exact hrest.owners x hx
  case heap =>
    rw [hrun]
    exact hrest.heap.trans hsame
  case calm =>
    rw [hrun]
    exact hrest.calm
  case ready =>
    rw [hrun]
    intro t' ht'
    rcases List.mem_cons.1 ht' with rfl | ht'
    · exact ht.advance hheap hread
    · exact hsame ▸ hrest.ready t' ht'

theorem resumes_of_refused {e : Error} (h : prepare world.heap t = .ok (some (p, candidate)))
    (hp : g.patch t.owner p.identity p.changes world = (.error e, world'))
    (hsame : world'.heap = world.heap) (hcalm : calm world'.far)
    (hts : ∀ t' ∈ t :: ts, t'.IsReady world.heap)
    (hlater : Tracked.waiting world.heap ts = .ok todo) :
    Resumes g calm (t :: ts) world (p :: todo) (p :: todo) := by
  have hpending := Tracked.pending?_of_prepare h
  have hwaiting : Tracked.waiting world.heap (t :: ts) = .ok (p :: todo) := by
    rw [Tracked.waiting_of_some hpending, hlater]
    rfl
  have hrun : run g (t :: ts) world = _ := run_of_refused h hp
  have hpatches : patches g (t :: ts) world = _ := patches_of_refused h hp
  constructor
  case waiting => exact hwaiting
  case delivers =>
    rw [hrun, hpatches]
    exact @Delivers.some _ [] ⟨t, p, .error e⟩ todo e rfl (by simp) rfl
  case rest =>
    rw [hrun]
    exact hwaiting
  case owners =>
    rw [hpatches]
    intro x hx
    obtain rfl := List.mem_singleton.1 hx
    exact (hts t List.mem_cons_self).fits.owner_eq hpending
  case heap => rw [hrun]; exact hsame
  case calm => rw [hrun]; exact hcalm
  case ready => rw [hrun]; exact hts

end Cases

/-- **A sweep over a quiet gateway delivers what waits to be sent.** The induction runs over the
turns, all of which see the same live entities. -/
theorem run_resumes {σ : Type} {g : Gateway σ} {calm : σ → Prop} (hquiet : g.Quiet calm)
    (ts : List Tracked) (world : World σ) (hcalm : calm world.far)
    (hheap : world.heap.WellFormed) (hsound : world.heap.IsSound)
    (hts : ∀ t ∈ ts, t.IsReady world.heap) :
    ∃ todo rest, Resumes g calm ts world todo rest := by
  induction ts, world using run.induct g with
  | case1 world => exact ⟨[], [], resumes_nil hcalm⟩
  | case2 t ts world e h =>
    obtain ⟨o, ho⟩ := (hts t List.mem_cons_self).exists_prepare hheap hsound
    rw [ho] at h
    cases h
  | case3 t ts world h ih =>
    obtain ⟨ht, hts⟩ := List.forall_mem_cons.1 hts
    obtain ⟨todo, rest, hrest⟩ := ih hcalm hheap hsound hts
    exact ⟨todo, rest, resumes_of_clean h ht hrest⟩
  | case4 t ts world p candidate h a world' hp ih =>
    obtain ⟨ht, hts⟩ := List.forall_mem_cons.1 hts
    have hq := hquiet t.owner p.identity p.changes world hcalm
    rw [hp] at hq
    rw [hq.1] at ih
    obtain ⟨todo, rest, hrest⟩ := ih hq.2 hheap hsound hts
    exact ⟨p :: todo, rest, resumes_of_acknowledged h hp hq.1 hheap hsound ht hrest⟩
  | case5 t ts world p candidate h e world' hp =>
    have hq := hquiet t.owner p.identity p.changes world hcalm
    rw [hp] at hq
    obtain ⟨later, hlater⟩ :=
      Tracked.exists_waiting hheap hsound (List.forall_mem_cons.1 hts).2
    exact ⟨p :: later, p :: later, resumes_of_refused h hp hq.1 hq.2 hts hlater⟩

end Sweep

end ItemClient
