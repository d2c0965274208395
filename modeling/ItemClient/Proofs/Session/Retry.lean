import ItemClient.Http.Link
import ItemClient.Proofs.Commit.Requests
import ItemClient.Proofs.Commit.Resume
import ItemClient.Proofs.Session.Script

/-!
# Exactly once across retries

Commits are called one after the other until one goes through, or longer, and nobody edits or
registers anything meanwhile. Whatever is answered, the acknowledged PATCHes so far followed by
what still waits are what was pending at the start (`Attempts.Progress`), and the next call goes
on from there (`Attempts.Call`). So up to the first call that goes through each pending change is
acknowledged once, in order. A call over the link sends the requests of its PATCHes and no other;
each of them carries the change set to the row that was loaded.

Main result: `Session.Reachable.exactly_once`.
-/

namespace ItemClient

/-- Commits that were called one after the other: the unit of work and the world after them. -/
structure Attempts (σ : Type) where
  tracker : UnitOfWork
  world : World σ
  /-- The PATCHes that were sent, oldest first. -/
  sent : List Patch := []
  /-- What the calls gave. -/
  results : List (Result CommitReport) := []

namespace Attempts

variable {σ : Type}

/-- What becomes of one more call. -/
def outcome (g : Gateway σ) (a : Attempts σ) : Outcome (World σ) CommitReport :=
  a.tracker.commit g a.world

/-- The PATCHes of one more call. -/
def patches (g : Gateway σ) (a : Attempts σ) : List Patch :=
  Sweep.patches g a.tracker.records a.world

/-- One more call. -/
def next (g : Gateway σ) (a : Attempts σ) : Attempts σ :=
  { tracker := (a.outcome g).tracker
    world := (a.outcome g).world
    sent := a.sent ++ a.patches g
    results := a.results ++ [(a.outcome g).result] }

/-- Several calls one after the other. -/
def after (g : Gateway σ) (a : Attempts σ) : Nat → Attempts σ
  | 0 => a
  | n + 1 => (after g a n).next g

/-- Where calls have got, of all that was pending when `u` was first committed. -/
structure Progress (u : UnitOfWork) (heap : Heap) (all rest : List Pending) (a : Attempts σ) :
    Prop where
  /-- Each pending change is acknowledged once and in order, or still waits. -/
  acknowledged : a.sent.filterMap Patch.acknowledged? ++ rest = all
  pending : a.tracker.pending a.world.heap = .ok rest
  heap : a.world.heap = heap
  /-- As long as calls fail every entity stays tracked. -/
  tracked : (∀ r ∈ a.results, ∃ e, r = .error e) → a.tracker.entities = u.entities
  /-- Once a call goes through nothing is tracked and nothing waits. -/
  finished : ∀ report, .ok report ∈ a.results → a.tracker.records = [] ∧ rest = []

/-- What one more call does when `rest` still waits. -/
structure Call (g : Gateway σ) (rest : List Pending) (a : Attempts σ) : Prop where
  /-- A call that goes through sends all of it and then tracks nothing. -/
  ok : ∀ report, (a.outcome g).result = .ok report →
    (a.patches g).map Patch.pending = rest ∧ (∀ x ∈ a.patches g, x.answer = .ok ()) ∧
      report = { inspected := a.tracker.size, patched := (a.patches g).length } ∧
      (a.outcome g).tracker.records = []
  /-- A call that fails stops at the first PATCH that is refused. -/
  error : ∀ e, (a.outcome g).result = .error e → ∃ sent x later source,
    a.patches g = sent ++ [x] ∧ (∀ y ∈ sent, y.answer = .ok ()) ∧ x.answer = .error source ∧
      rest = sent.map Patch.pending ++ x.pending :: later ∧
      e = .persistence x.pending.collection x.pending.identity source ∧
      e.isRetryable = source.isRetryable ∧
      (a.outcome g).tracker.entities = a.tracker.entities ∧
      (a.outcome g).tracker.pending (a.outcome g).world.heap = .ok (x.pending :: later)
  /-- Each goes to the row of its key, over the link or to the accessor of the collection. -/
  rows : ∀ x ∈ a.patches g, x.GoesOut g
  /-- Over the link their requests are sent in order, and no others. -/
  requests : ∀ before : List Request,
    (a.tracker.commit g.listing (a.world.listed before)).world.far.1 =
      before ++ (a.patches g).filterMap Patch.request?
  /-- Nothing but these PATCHes is done to the world, and they are answered as listed. -/
  world : g.patchAll ((a.patches g).map fun x => (x.tracked, x.pending)) a.world =
    ((a.patches g).map Patch.answer, (a.outcome g).world)

/-! ## One call -/

/-- What one more call can rely on. -/
structure Ready (calm : σ → Prop) (a : Attempts σ) : Prop where
  calm : calm a.world.far
  wellFormed : a.world.heap.WellFormed
  sound : a.world.heap.IsSound
  records : ∀ t ∈ a.tracker.records, t.IsReady a.world.heap

variable {g : Gateway σ} {calm : σ → Prop} {u : UnitOfWork} {heap : Heap}
  {all rest : List Pending} {a : Attempts σ}

/-- The sweep of one more call. -/
def sweep (g : Gateway σ) (a : Attempts σ) : Sweep σ := Sweep.run g a.tracker.records a.world

theorem Ready.resumes (hready : a.Ready calm) (hquiet : g.Quiet calm)
    (hpending : a.tracker.pending a.world.heap = .ok rest) :
    ∃ rest', Sweep.Resumes g calm a.tracker.records a.world rest rest' := by
  obtain ⟨todo, rest', hresumes⟩ := Sweep.run_resumes hquiet a.tracker.records a.world
    hready.calm hready.wellFormed hready.sound hready.records
  obtain rfl : rest = todo := Except.ok.inj (hpending.symm.trans hresumes.waiting)
  exact ⟨rest', hresumes⟩

/-- **One more call goes on from what still waits.** -/
theorem Ready.call (hready : a.Ready calm) (hquiet : g.Quiet calm)
    (hpending : a.tracker.pending a.world.heap = .ok rest) : a.Call g rest := by
  obtain ⟨rest', hresumes⟩ := hready.resumes hquiet hpending
  constructor
  case ok =>
    intro report hok
    cases hresult : (a.sweep g).result with
    | error e =>
      rw [outcome, UnitOfWork.commit_of_error hresult] at hok
      cases hok
    | ok n =>
      rw [outcome, UnitOfWork.commit_of_ok hresult] at hok ⊢
      cases hok
      obtain ⟨hsent, hanswers, hlength, -⟩ := (hresult ▸ hresumes.delivers).of_ok
      exact ⟨hsent, hanswers, by rw [hlength]; rfl, rfl⟩
  case error =>
    intro e herror
    cases hresult : (a.sweep g).result with
    | ok n =>
      rw [outcome, UnitOfWork.commit_of_ok hresult] at herror
      cases herror
    | error e' =>
      rw [outcome, UnitOfWork.commit_of_error hresult] at herror ⊢
      cases herror
      obtain ⟨sent, x, later, source, hsent, hanswers, hx, htodo, he, hleft⟩ :=
        (hresult ▸ hresumes.delivers).of_error
      refine ⟨sent, x, later, source, hsent, hanswers, hx, htodo, he, by rw [he]; rfl,
        Sweep.entities_run _ _ _, ?_⟩
      show Tracked.waiting (a.sweep g).world.heap (a.sweep g).records = _
      rw [sweep, hresumes.heap, hresumes.rest, hleft]
  case rows => exact fun x hx => Patch.goesOut (hresumes.owners x hx) g
  case requests =>
    intro before
    rw [UnitOfWork.commit_listed hresumes.owners]
    rfl
  case world =>
    rw [outcome, UnitOfWork.world_commit]
    exact Sweep.world_run g a.tracker.records a.world

/-- **One more call keeps the progress**, and the next one can rely on the same. -/
theorem Progress.next (h : a.Progress u heap all rest) (hquiet : g.Quiet calm)
    (hready : a.Ready calm) :
    ∃ rest', (a.next g).Progress u heap all rest' ∧ (a.next g).Ready calm := by
  obtain ⟨rest', hresumes⟩ := hready.resumes hquiet h.pending
  have hworld : (a.next g).world = (a.sweep g).world := UnitOfWork.world_commit _ _ _
  have hheap : (a.next g).world.heap = a.world.heap := by
    rw [hworld]
    exact hresumes.heap
  have hcalm : calm (a.next g).world.far := by
    rw [hworld]
    exact hresumes.calm
  have hacknowledged : (a.next g).sent.filterMap Patch.acknowledged? ++ rest' = all := by
    show (a.sent ++ a.patches g).filterMap _ ++ rest' = all
    rw [List.filterMap_append, List.append_assoc, patches, hresumes.delivers.acknowledged,
      h.acknowledged]
  cases hresult : (a.sweep g).result with
  | ok n =>
    have houtcome : a.outcome g = a.tracker.finished (a.sweep g) n :=
      UnitOfWork.commit_of_ok hresult
    have hrecords : (a.next g).tracker.records = [] := by
      rw [Attempts.next, houtcome]
      rfl
    obtain ⟨-, -, -, hleft⟩ := (hresult ▸ hresumes.delivers).of_ok
    have hpending : (a.next g).tracker.pending (a.next g).world.heap = .ok rest' := by
      rw [Tracked.pending_eq_waiting, hrecords, hleft]
      rfl
    refine ⟨rest', ⟨hacknowledged, hpending, hheap.trans h.heap, fun hfail => ?_,
      fun _ _ => ⟨hrecords, hleft⟩⟩, ⟨hcalm, ?_, ?_, ?_⟩⟩
    · -- The last call went through.
      obtain ⟨e, he⟩ := hfail _ (List.mem_append_right _ List.mem_cons_self)
      rw [houtcome] at he
      cases he
    · exact hheap ▸ hready.wellFormed
    · exact hheap ▸ hready.sound
    · simp [hrecords]
  | error e =>
    have houtcome : a.outcome g = a.tracker.aborted (a.sweep g) e :=
      UnitOfWork.commit_of_error hresult
    have hrecords : (a.next g).tracker.records = (a.sweep g).records := by
      rw [Attempts.next, houtcome]
      rfl
    have hpending : (a.next g).tracker.pending (a.next g).world.heap = .ok rest' := by
      rw [Tracked.pending_eq_waiting, hrecords, hheap]
      exact hresumes.rest
    refine ⟨rest', ⟨hacknowledged, hpending, hheap.trans h.heap, fun hfail => ?_,
      fun report hreport => ?_⟩, ⟨hcalm, ?_, ?_, ?_⟩⟩
    · rw [UnitOfWork.entities, hrecords, sweep, Sweep.entities_run]
      exact h.tracked fun r hr => hfail r (List.mem_append_left _ hr)
    · -- A call after one that went through goes through.
      rcases List.mem_append.1 hreport with hbefore | hlast
      · rw [sweep, (h.finished report hbefore).1] at hresult
        cases hresult
      · rw [List.mem_singleton, houtcome] at hlast
        cases hlast
    · exact hheap ▸ hready.wellFormed
    · exact hheap ▸ hready.sound
    · rw [hrecords, hheap]
      exact hresumes.ready

/-- **Any number of calls keeps the progress.** -/
theorem Progress.after (h : a.Progress u heap all rest) (hquiet : g.Quiet calm)
    (hready : a.Ready calm) (n : Nat) :
    ∃ rest', (a.after g n).Progress u heap all rest' ∧ (a.after g n).Ready calm := by
  induction n with
  | zero => exact ⟨rest, h, hready⟩
  | succ n ih =>
    obtain ⟨rest', h', hready'⟩ := ih
    exact h'.next hquiet hready'

end Attempts

/-- Over HTTP nothing is ever done to the live entities. -/
theorem Http.Endpoint.quiet (e : Endpoint) (network : Network) :
    (e.gateway network).Quiet fun _ => True := by
  intro a id changes world _
  refine ⟨?_, trivial⟩
  rcases (e.gateway network).patch_eq a with hpatch | hpatch
  · rw [hpatch]
    unfold Gateway.patchRow gateway
    dsimp only
    cases e.send network (.change a.collection id changes.toJson) <;> rfl
  · rw [hpatch]
    rfl

/-! ## Retries of a session -/

namespace Session

variable {s : Session}

/-- No entity is poisoned, and no tracked one holds a NaN. -/
structure IsOrdinary (s : Session) : Prop where
  sound : s.heap.IsSound
  ordinary : ∀ id ∈ s.tracker.entities, ∀ r, s.heap.record? id = some r → r.IsOrdinary

theorem IsOrdinary.ready (hordinary : s.IsOrdinary) (inv : s.Inv) :
    ∀ t ∈ s.tracker.records, t.IsReady s.heap := by
  intro t ht
  have hfits := (inv.faithful t ht).fits
  obtain ⟨r, hr, -⟩ := hfits.exists_record
  exact ⟨hfits, r, Heap.read_of_record? hr (hordinary.sound _),
    hordinary.ordinary _ (List.mem_map_of_mem ht) r hr⟩

/-- **Each pending change is acknowledged exactly once**, however often commits fail on the
way. -/
theorem Reachable.exactly_once (h : s.Reachable) (hordinary : s.IsOrdinary) {σ : Type}
    {g : Gateway σ} {calm : σ → Prop} (hquiet : g.Quiet calm) {far : σ} (hcalm : calm far) :
    ∃ all, s.tracker.pending s.heap = .ok all ∧ ∀ n, ∃ rest,
      let a := (Attempts.mk s.tracker (s.world far) [] []).after g n
      a.Progress s.tracker s.heap all rest ∧ a.Call g rest := by
  have inv := h.inv
  have hrecords := hordinary.ready inv
  obtain ⟨all, hall⟩ := Tracked.exists_waiting inv.heap hordinary.sound hrecords
  have hstart : (Attempts.mk s.tracker (s.world far) [] []).Progress s.tracker s.heap all all :=
    ⟨rfl, hall, rfl, fun _ => rfl, by simp⟩
  have hready : (Attempts.mk s.tracker (s.world far) [] []).Ready calm :=
    ⟨hcalm, inv.heap, hordinary.sound, hrecords⟩
  refine ⟨all, hall, fun n => ?_⟩
  obtain ⟨rest, hprogress, hready⟩ := hstart.after hquiet hready n
  exact ⟨rest, hprogress, hready.call hquiet hprogress.pending⟩

theorem isOrdinary_edited : edited.IsOrdinary where
  sound := by
    intro id
    match id with
    | 0 => rfl
    | 1 => rfl
    | _ + 2 => rfl
  ordinary := by
    intro id _ r hr x hx
    match id, hr with
    | 0, hr | 1, hr =>
      cases hr
      simp only [tagOf, List.mem_cons, Value.scalar.injEq, reduceCtorEq, List.not_mem_nil,
        or_false] at hx
      rw [hx]
      rfl
    | _ + 2, hr => cases hr

/-- The store takes the first tag, and never the second. -/
def broken : Script :=
  { answers := [((.patch, "items/tag/a"), .response ⟨200, []⟩),
      ((.patch, "items/tag/b"), .broken "down")] }

/-- What changes the key of the first tag. -/
def rekeyRequest : Request :=
  { method := .patch, segments := ["items", "tag", "a"],
    body := some (.object [("id", .string "x")]) }

/-- What changes the name of the second tag. -/
def renameRequest : Request :=
  { method := .patch, segments := ["items", "tag", "b"],
    body := some (.object [("name", .string "new")]) }

/-- Two calls send three PATCHes, and the first tag is acknowledged once. -/
theorem exactly_once_broken :
    (∃ all, edited.tracker.pending edited.heap = .ok all ∧ ∀ n, ∃ rest,
      let a := (Attempts.mk edited.tracker (edited.world broken) [] []).after Script.gateway n
      a.Progress edited.tracker edited.heap all rest ∧ a.Call Script.gateway rest) ∧
    ((Attempts.mk edited.tracker (edited.world broken) [] []).after Script.gateway 2).sent.map
      (·.pending.identity) = ["a", "b", "b"] ∧
    ((Attempts.mk edited.tracker ((edited.world broken).listed []) [] []).after
      Script.gateway.listing 2).world.far.1 = [rekeyRequest, renameRequest, renameRequest] :=
  ⟨Reachable.exactly_once reachable_edited isOrdinary_edited Script.quiet rfl, rfl, rfl⟩

end Session

end ItemClient
