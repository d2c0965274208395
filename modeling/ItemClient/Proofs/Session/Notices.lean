import Mathlib.Data.List.DropRight
import ItemClient.Proofs.Session.Coherence
import ItemClient.Proofs.Session.InFlight
import ItemClient.Proofs.Session.Retry

/-!
# What the observer is told

A session along with the journal of an observer that keeps all notices (`Observed`). From the
notices alone one can tell how many entities are tracked: those that were announced since
tracking ended last, by a commit that went through or a reset (`announced`).

**Commits** (`UnitOfWork.Recounts`). A commit tells of each PATCH that was acknowledged, in the order
of sending, and then of its end: that it went through, with the number of tracked entities and of
these PATCHes, or that a PATCH was refused, with the reason. It breaks off without a word only
when an entity turns out to be poisoned.

**Invariant** (`Observed.Inv`). The tracked entities are as many as are announced, and every notice
that tracking has ended bears the number that was announced before it (`Accurate`).

Main result: `Observed.Reachable.told_faithfully`.
-/

namespace ItemClient

/-! ## Reading the notices -/

namespace Notice

/-- An entity is announced as tracked. -/
def isTracked : Notice → Bool
  | tracked _ _ => true
  | _ => false

/-- Nothing is tracked any more. -/
def endsTracking : Notice → Bool
  | finished _ | reset _ => true
  | _ => false

/-- When tracking ends, the notice of it bears this number of tracked entities. -/
def Counts (n : Nat) : Notice → Prop
  | finished report => report.inspected = n
  | reset discarded => discarded = n
  | _ => True

end Notice

/-- How many entities were announced since tracking ended last. -/
def announced (told : List Notice) : Nat :=
  (told.rtakeWhile fun n => !n.endsTracking).countP Notice.isTracked

/-- Every notice that tracking has ended bears the number that was announced before it. -/
def Accurate (told : List Notice) : Prop :=
  ∀ before n after, told = before ++ n :: after → n.Counts (announced before)

section Told

variable {told notices : List Notice} {n : Notice}

theorem announced_append (h : ∀ n ∈ notices, n.endsTracking = false) :
    announced (told ++ notices) = announced told + notices.countP Notice.isTracked := by
  have hall : ∀ n ∈ notices.reverse, (!n.endsTracking) = true := by
    intro n hn
    rw [h n (List.mem_reverse.1 hn)]
    rfl
  unfold announced List.rtakeWhile
  rw [List.reverse_append, List.takeWhile_append_of_pos hall, List.reverse_append,
    List.reverse_reverse, List.countP_append]

theorem announced_of_ends (h : n.endsTracking = true) (told : List Notice) :
    announced (told ++ [n]) = 0 := by
  unfold announced
  rw [List.rtakeWhile_concat_neg _ _ _ (by simp [h])]
  rfl

theorem accurate_nil : Accurate [] := by
  intro before n after h
  simp at h

/-- One more notice has to bear the right number. -/
theorem accurate_concat : Accurate (told ++ [n]) ↔ Accurate told ∧ n.Counts (announced told) := by
  constructor
  · intro h
    refine ⟨fun before m after hsplit => h before m (after ++ [n]) (by simp [hsplit]), ?_⟩
    exact h told n [] rfl
  · rintro ⟨htold, hn⟩ before m after hsplit
    rcases List.eq_nil_or_concat after with rfl | ⟨after, last, rfl⟩
    · obtain ⟨rfl, hlast⟩ := List.append_inj' hsplit rfl
      cases hlast
      exact hn
    · have hsplit' : told ++ [n] = (before ++ m :: after) ++ [last] := by simpa using hsplit
      exact htold before m after (List.append_inj' hsplit' rfl).1

/-- Notices that do not end tracking bear no number. -/
theorem Accurate.append (h : Accurate told) (hnotices : ∀ n ∈ notices, n.endsTracking = false) :
    Accurate (told ++ notices) := by
  induction notices generalizing told with
  | nil => rwa [List.append_nil]
  | cons n notices ih =>
    have hcounts : n.Counts (announced told) := by
      have hn := hnotices n List.mem_cons_self
      cases n <;> simp_all [Notice.Counts, Notice.endsTracking]
    have hmore := ih (accurate_concat.2 ⟨h, hcounts⟩) fun m hm => hnotices m (List.mem_cons_of_mem _ hm)
    rwa [List.append_assoc] at hmore

end Told

/-! ## Commits -/

/-- What the observer is told of changes that were acknowledged. -/
def Pending.notice (p : Pending) : Notice := .patched p.collection p.identity p.changes

/-- What the observer is told of changes that were refused. -/
def Pending.refusal (p : Pending) (e : Error) : Notice := .failed p.collection p.identity e

namespace Sweep

variable {σ : Type} {g : Gateway σ} {ts : List Tracked} {world : World σ} {n : Nat} {e : Error}

/-- What was acknowledged of the PATCHes of a sweep, in order. -/
def sent (g : Gateway σ) (ts : List Tracked) (world : World σ) : List Pending :=
  (patches g ts world).filterMap Patch.acknowledged?

/-- A sweep that goes through tells of what was acknowledged. -/
theorem notices_of_ok (h : (run g ts world).result = .ok n) :
    (run g ts world).notices = (sent g ts world).map Pending.notice ∧
      n = (sent g ts world).length := by
  unfold sent
  induction ts, world using run.induct g generalizing n with
  | case1 world =>
    cases h
    exact ⟨rfl, rfl⟩
  | case2 t ts world e hprepare =>
    rw [run_of_failed hprepare] at h
    cases h
  | case3 t ts world hprepare ih =>
    rw [run_of_clean hprepare] at h ⊢
    rw [patches_of_clean hprepare]
    exact ih h
  | case4 t ts world p candidate hprepare a world' hp ih =>
    rw [run_of_acknowledged hprepare hp] at h ⊢
    rw [patches_of_acknowledged hprepare hp]
    obtain ⟨m, hm, rfl⟩ := Result.map_eq_ok.1 h
    obtain ⟨hnotices, rfl⟩ := ih hm
    exact ⟨congrArg (p.notice :: ·) hnotices, rfl⟩
  | case5 t ts world p candidate hprepare e world' hp =>
    rw [run_of_refused hprepare hp] at h
    cases h

/-- A sweep that does not go through tells of what was acknowledged before, and of the PATCH that
was refused if it broke off at one. -/
theorem notices_of_error (h : (run g ts world).result = .error e) :
    (∃ x source, (patches g ts world).getLast? = some x ∧ x.answer = .error source ∧
        e = .persistence x.pending.collection x.pending.identity source ∧
        (run g ts world).notices =
          (sent g ts world).map Pending.notice ++ [x.pending.refusal source]) ∨
      ((∃ turn ∈ turns g ts world, prepare turn.world.heap turn.tracked = .error e) ∧
        (run g ts world).notices = (sent g ts world).map Pending.notice) := by
  unfold sent
  induction ts, world using run.induct g generalizing e with
  | case1 world => cases h
  | case2 t ts world e' hprepare =>
    rw [run_of_failed hprepare] at h ⊢
    rw [patches_of_failed hprepare, turns_of_failed hprepare]
    cases h
    exact .inr ⟨⟨_, List.mem_cons_self, hprepare⟩, rfl⟩
  | case3 t ts world hprepare ih =>
    rw [run_of_clean hprepare] at h ⊢
    rw [patches_of_clean hprepare, turns_of_clean hprepare]
    refine (ih h).imp_right ?_
    rintro ⟨⟨turn, hturn, he⟩, hnotices⟩
    exact ⟨⟨turn, List.mem_cons_of_mem _ hturn, he⟩, hnotices⟩
  | case4 t ts world p candidate hprepare a world' hp ih =>
    rw [run_of_acknowledged hprepare hp] at h ⊢
    rw [patches_of_acknowledged hprepare hp, turns_of_acknowledged hprepare hp]
    refine (ih (Result.map_eq_error.1 h)).imp ?_ ?_
    · rintro ⟨x, source, hlast, hx, he, hnotices⟩
      refine ⟨x, source, ?_, hx, he, congrArg (p.notice :: ·) hnotices⟩
      rw [List.getLast?_cons, hlast]
      rfl
    · rintro ⟨⟨turn, hturn, he⟩, hnotices⟩
      exact ⟨⟨turn, List.mem_cons_of_mem _ hturn, he⟩, congrArg (p.notice :: ·) hnotices⟩
  | case5 t ts world p candidate hprepare e' world' hp =>
    rw [run_of_refused hprepare hp] at h ⊢
    rw [patches_of_refused hprepare hp]
    cases h
    exact .inl ⟨_, e', rfl, rfl, rfl, rfl⟩

/-- As long as a sweep is under way nothing is announced and tracking does not end. -/
theorem quiet_notices {notice : Notice} (h : notice ∈ (run g ts world).notices) :
    notice.endsTracking = false ∧ notice.isTracked = false := by
  have hsent : notice ∈ (sent g ts world).map Pending.notice →
      notice.endsTracking = false ∧ notice.isTracked = false := by
    intro hmem
    obtain ⟨p, -, rfl⟩ := List.mem_map.1 hmem
    exact ⟨rfl, rfl⟩
  cases hresult : (run g ts world).result with
  | ok n => exact hsent ((notices_of_ok hresult).1 ▸ h)
  | error e =>
    rcases notices_of_error hresult with ⟨x, source, -, -, -, hnotices⟩ | ⟨-, hnotices⟩
    · rw [hnotices] at h
      rcases List.mem_append.1 h with h | h
      · exact hsent h
      · rw [List.mem_singleton.1 h]
        exact ⟨rfl, rfl⟩
    · exact hsent (hnotices ▸ h)

end Sweep

namespace UnitOfWork

variable {σ : Type}

/-- What a commit tells the observer. -/
structure Recounts (u : UnitOfWork) (g : Gateway σ) (world : World σ) : Prop where
  /-- A commit that goes through tells of each PATCH that was acknowledged, and then that it has
  finished. -/
  ok : ∀ report, (u.commit g world).result = .ok report →
    (u.commit g world).notices =
        (Sweep.sent g u.records world).map Pending.notice ++ [.finished report] ∧
      report.inspected = u.size ∧ report.patched = (Sweep.sent g u.records world).length
  /-- One that fails tells of those that were acknowledged before, and then of the one that was
  refused. It tells nothing more when there is none, as something is poisoned. -/
  error : ∀ e, (u.commit g world).result = .error e →
    (∃ x source, (Sweep.patches g u.records world).getLast? = some x ∧ x.answer = .error source ∧
        e = .persistence x.pending.collection x.pending.identity source ∧
        (u.commit g world).notices =
          (Sweep.sent g u.records world).map Pending.notice ++ [x.pending.refusal source]) ∨
      (e = .poisoned ∧ (∃ turn ∈ Sweep.turns g u.records world, ¬ turn.world.heap.IsSound) ∧
        (u.commit g world).notices = (Sweep.sent g u.records world).map Pending.notice)
  /-- The changes that are told of are those that were sent, each to the row of its key, over the
  link or to the accessor of its collection. -/
  rows : ∀ x ∈ Sweep.patches g u.records world, x.GoesOut g
  /-- Over the link they are the bodies of the requests, which are sent in order, and no others. -/
  requests : ∀ before : List Request,
    (u.commit g.listing (world.listed before)).world.far.1 =
      before ++ (Sweep.patches g u.records world).filterMap Patch.request?
  /-- Nothing but these PATCHes is done to the world, and they are answered as listed. -/
  world : g.patchAll ((Sweep.patches g u.records world).map fun x => (x.tracked, x.pending)) world =
    ((Sweep.patches g u.records world).map Patch.answer, (u.commit g world).world)

/-- What a registration tells the observer: of each new entity in turn, and nothing if it fails. -/
structure Announces (u : UnitOfWork) (heap : Heap) (roots : List EntityId) : Prop where
  ok : ∀ n u' notices, u.registerAll heap roots = (.ok n, u', notices) →
    ∃ new, u'.records = u.records ++ new ∧ new.length = n ∧
      notices = new.map fun t => .tracked (heap.collection t.entity) t.original.key.identity
  error : ∀ e u' notices, u.registerAll heap roots = (.error e, u', notices) → notices = []

/-- What is announced of new tracked entities. -/
theorem notices_track {u : UnitOfWork} {heap : Heap} (first : Nat) {found : List Discovery}
    (hfound : ∀ d ∈ found, d.Current u heap) :
    found.map Discovery.notice = (Discovery.track first found).map fun t =>
      .tracked (heap.collection t.entity) t.original.key.identity := by
  induction found generalizing first with
  | nil => rfl
  | cons d rest ih =>
    have hcollection : heap.collection d.entity = d.original.schema.collection := by
      rw [Heap.collection, Heap.schema?_of_read (hfound d List.mem_cons_self).original]
      rfl
    rw [Discovery.track, List.map_cons, List.map_cons,
      ih (first + 1) fun d' hd' => hfound d' (List.mem_cons_of_mem _ hd'), hcollection]
    rfl

/-- **What registrations announce.** -/
theorem announces (u : UnitOfWork) (heap : Heap) (roots : List EntityId) :
    u.Announces heap roots := by
  constructor
  case ok =>
    intro n u' notices h
    unfold registerAll at h
    split at h
    · rename_i found hfound
      cases h
      exact ⟨_, rfl, Discovery.length_track _ _, notices_track _ (discoveries_finds hfound).current⟩
    · cases h
  case error =>
    intro e u' notices h
    unfold registerAll at h
    split at h <;> cases h
    rfl

end UnitOfWork

namespace Session.Inv

variable {s : Session} {σ : Type} {g : Gateway σ}

/-- A PATCH is for the collection of its accessor. -/
theorem owner_of_mem_patches (inv : s.Inv) (hg : g.Orderly) {far : σ} {x : Patch}
    (hx : x ∈ Sweep.patches g s.tracker.records (s.world far)) :
    x.tracked.owner.collection = x.pending.collection := by
  obtain ⟨turn, hturn, htracked, hp⟩ := Sweep.exists_turn_of_mem_patches hx
  have hfits := (inv.faithful _ (Sweep.mem_of_mem_patches hx)).fits
  have hlater := hfits.mono (Sweep.changes_turns hg hturn).keeps
  exact hlater.owner_eq (htracked ▸ Tracked.pending?_of_turn hp)

/-- **What commits tell.** -/
theorem recounts (inv : s.Inv) (hg : g.Orderly) (far : σ) :
    s.tracker.Recounts g (s.world far) := by
  constructor
  case ok =>
    intro report hok
    obtain ⟨n, hrun⟩ := run_ok_of_commit_ok hok
    rw [UnitOfWork.commit_of_ok hrun] at hok ⊢
    obtain ⟨hnotices, hn⟩ := Sweep.notices_of_ok hrun
    cases hok
    exact ⟨congrArg (· ++ _) hnotices, rfl, hn⟩
  case error =>
    intro e he
    cases hrun : (Sweep.run g s.tracker.records (s.world far)).result with
    | ok n =>
      rw [UnitOfWork.commit_of_ok hrun] at he
      cases he
    | error e' =>
      rw [UnitOfWork.commit_of_error hrun] at he ⊢
      cases he
      refine (Sweep.notices_of_error hrun).imp_right ?_
      rintro ⟨⟨turn, hturn, hprepare⟩, hnotices⟩
      have hkeeps := (Sweep.changes_turns hg hturn).keeps
      have hfits := (inv.faithful _ (Sweep.mem_of_mem_turns hturn)).fits.mono hkeeps
      obtain ⟨hpoisoned, hunsound⟩ :=
        hfits.of_prepare_eq_error (hkeeps.wellFormed inv.heap) hprepare
      exact ⟨hpoisoned, ⟨turn, hturn, hunsound⟩, hnotices⟩
  case rows => exact fun x hx => Patch.goesOut (inv.owner_of_mem_patches hg hx) g
  case requests =>
    intro before
    rw [UnitOfWork.commit_listed fun x hx => inv.owner_of_mem_patches hg hx]
    rfl
  case world =>
    rw [UnitOfWork.world_commit]
    exact Sweep.world_run g s.tracker.records (s.world far)

end Session.Inv

/-! ## Observed sessions -/

/-- A session, and the journal of an observer that keeps all it is told. -/
structure Observed where
  session : Session
  journal : Journal := {}

namespace Observed

variable {o o' : Observed}

/-- What the observer was told, oldest first. -/
def told (o : Observed) : List Notice := o.journal.notices

/-- The session goes on, and the observer is told of it. -/
def next (o : Observed) (s : Session) (notices : List Notice) : Observed :=
  { session := s, journal := o.journal.observe .recording notices }

theorem next_next (o : Observed) (s s' : Session) (notices more : List Notice) :
    (o.next s notices).next s' more = o.next s' (notices ++ more) := by
  simp only [next, Journal.observe, List.append_assoc]

/-- One step of a session that is observed. -/
inductive Step (o : Observed) : Observed → Prop
  | change {heap : Heap} : o.session.heap.Change heap →
      Step o (o.next { o.session with heap } [])
  | register (roots : List EntityId) :
      Step o (o.next (o.session.registerAll roots)
        (o.session.tracker.registerAll o.session.heap roots).2.2)
  | commit {σ : Type} {g : Gateway σ} (far : σ) : g.Orderly →
      Step o (o.next (o.session.commit g far)
        (o.session.tracker.commit g (o.session.world far)).notices)
  | reset : Step o (o.next o.session.reset [o.session.tracker.reset.2])

/-- A session that was observed from the start. -/
def Reachable (o : Observed) : Prop :=
  ∃ s₀ : Session, s₀.IsInitial ∧ Relation.ReflTransGen Step { session := s₀ } o

theorem Step.session (h : Step o o') : o.session.Step o'.session := by
  cases h with
  | change hchange => exact .change hchange
  | register roots => exact .register roots
  | commit far hg => exact .commit far hg
  | reset => exact .reset

theorem Reachable.session (h : o.Reachable) : o.session.Reachable := by
  obtain ⟨s₀, hinitial, hsteps⟩ := h
  exact ⟨s₀, hinitial, hsteps.lift Observed.session fun _ _ => Step.session⟩

/-- The tracked entities are as many as are announced, and notices bear the right numbers. -/
structure Inv (o : Observed) : Prop where
  size : o.session.tracker.size = announced o.told
  accurate : Accurate o.told

/-- As long as tracking does not end the number grows by what is announced. -/
theorem Inv.next {s : Session} {notices : List Notice} (inv : o.Inv)
    (hnotices : ∀ n ∈ notices, n.endsTracking = false)
    (hsize : s.tracker.size = o.session.tracker.size + notices.countP Notice.isTracked) :
    (o.next s notices).Inv where
  size := by
    show s.tracker.size = announced (o.told ++ notices)
    rw [announced_append hnotices, ← inv.size, hsize]
  accurate := inv.accurate.append hnotices

/-- When tracking ends the number that was announced is told. -/
theorem Inv.ended {s : Session} {n : Notice} (inv : o.Inv) (hrecords : s.tracker.records = [])
    (hends : n.endsTracking = true) (hcounts : n.Counts o.session.tracker.size) :
    (o.next s [n]).Inv where
  size := by
    show s.tracker.size = announced (o.told ++ [n])
    rw [announced_of_ends hends, UnitOfWork.size, hrecords]
    rfl
  accurate := accurate_concat.2 ⟨inv.accurate, inv.size ▸ hcounts⟩

theorem Inv.registerAll (inv : o.Inv) (roots : List EntityId) :
    (o.next (o.session.registerAll roots)
      (o.session.tracker.registerAll o.session.heap roots).2.2).Inv := by
  have htold := o.session.tracker.announces o.session.heap roots
  unfold Session.registerAll
  cases hresult : o.session.tracker.registerAll o.session.heap roots with
  | mk result rest =>
  obtain ⟨tracker, notices⟩ := rest
  cases result with
  | error e =>
    obtain rfl := UnitOfWork.registerAll_eq_error hresult
    obtain rfl := htold.error _ _ _ hresult
    exact inv.next (by simp) rfl
  | ok n =>
    obtain ⟨new, hrecords, -, rfl⟩ := htold.ok _ _ _ hresult
    have hannounced : ∀ m ∈ new.map fun t => Notice.tracked (o.session.heap.collection t.entity)
        t.original.key.identity, m.endsTracking = false ∧ m.isTracked = true := by
      intro m hm
      obtain ⟨t, -, rfl⟩ := List.mem_map.1 hm
      exact ⟨rfl, rfl⟩
    refine inv.next (fun m hm => (hannounced m hm).1) ?_
    rw [List.countP_eq_length.2 fun m hm => (hannounced m hm).2, List.length_map]
    show tracker.records.length = _
    rw [hrecords, List.length_append]
    rfl

theorem Inv.commit {σ : Type} {g : Gateway σ} (inv : o.Inv) (far : σ) :
    (o.next (o.session.commit g far)
      (o.session.tracker.commit g (o.session.world far)).notices).Inv := by
  have hnotices := fun notice => @Sweep.quiet_notices σ g o.session.tracker.records
    (o.session.world far) notice
  have hnone : (Sweep.run g o.session.tracker.records (o.session.world far)).notices.countP
      Notice.isTracked = 0 :=
    List.countP_eq_zero.2 fun n hn => by simp [(hnotices n hn).2]
  unfold Session.commit
  cases hresult : (Sweep.run g o.session.tracker.records (o.session.world far)).result with
  | ok n =>
    rw [UnitOfWork.commit_of_ok hresult]
    -- The notices of the sweep come first, and then tracking ends.
    have hswept : (o.next o.session
        (Sweep.run g o.session.tracker.records (o.session.world far)).notices).Inv :=
      inv.next (fun m hm => (hnotices m hm).1) (by rw [hnone, Nat.add_zero])
    show (o.next _ (_ ++ [_])).Inv
    rw [← next_next]
    exact hswept.ended rfl rfl rfl
  | error e =>
    rw [UnitOfWork.commit_of_error hresult]
    refine inv.next (fun m hm => (hnotices m hm).1) ?_
    have hentities := congrArg List.length
      (Sweep.entities_run g o.session.tracker.records (o.session.world far))
    rw [List.length_map, List.length_map] at hentities
    exact hentities.trans (hnone ▸ rfl)

/-- **Every step keeps the invariant.** -/
theorem Inv.step (inv : o.Inv) (h : Step o o') : o'.Inv := by
  cases h with
  | change hchange => exact inv.next (by simp) rfl
  | register roots => exact inv.registerAll roots
  | commit far hg => exact inv.commit far
  | reset => exact inv.ended rfl rfl rfl

/-- **The invariant holds of every session that is observed.** -/
theorem Reachable.inv (h : o.Reachable) : o.Inv := by
  obtain ⟨s₀, hinitial, hsteps⟩ := h
  induction hsteps with
  | refl => exact ⟨by rw [UnitOfWork.size, hinitial.records]; rfl, accurate_nil⟩
  | tail _ hstep ih => exact ih.step hstep

/-- What the observer was told is a faithful account of the unit of work. -/
structure Faithful (o : Observed) : Prop where
  /-- Tracked are as many entities as were announced since tracking ended last. -/
  size : o.session.tracker.size = announced o.told
  /-- Whenever it ended, the notice bore this number. -/
  accurate : Accurate o.told
  /-- A reset from here tells this number. -/
  reset : o.session.tracker.reset.2 = .reset (announced o.told)
  /-- A registration tells of each new entity, or nothing. -/
  registrations : ∀ roots, o.session.tracker.Announces o.session.heap roots
  /-- A commit tells of each PATCH that was acknowledged, and of its end. -/
  commits : ∀ {σ : Type} (g : Gateway σ) (far : σ), g.Orderly →
    o.session.tracker.Recounts g (o.session.world far)

/-- **What the observer is told is a faithful account**, at any time. -/
theorem Reachable.told_faithfully (h : o.Reachable) : o.Faithful where
  size := h.inv.size
  accurate := h.inv.accurate
  reset := congrArg Notice.reset h.inv.size
  registrations := fun roots => o.session.tracker.announces o.session.heap roots
  commits := fun _ far hg => h.session.inv.recounts hg far

/-- Two tags are tracked and edited. -/
def edited : Observed :=
  { session := Session.edited, journal := { notices := [.tracked "tag" "a", .tracked "tag" "b"] } }

theorem reachable_edited : edited.Reachable := by
  have hkey : (Session.tags.registerAll [0]).heap.edit 0 (.key (.text "x")) =
      .ok Session.rekeyed.heap := rfl
  have hname : Session.rekeyed.heap.edit 1 (.scalar "name" (.text "new")) =
      .ok Session.edited.heap := rfl
  have hregister : Step { session := Session.tags }
      { edited with session := Session.tags.registerAll [0] } := .register [0]
  have hrekeyed : Step { edited with session := Session.tags.registerAll [0] }
      { edited with session := Session.rekeyed } := .change (.edit hkey)
  have hedited : Step { edited with session := Session.rekeyed } edited := .change (.edit hname)
  exact ⟨Session.tags, Session.isInitial_tags,
    ((Relation.ReflTransGen.single hregister).tail hrekeyed).tail hedited⟩

/-- A commit breaks off at the second tag, all is dropped, and the second is tracked and committed
once more, now as it stands. -/
def interrupted : Observed :=
  let o := edited.next (edited.session.commit Script.gateway Session.broken)
    (edited.session.tracker.commit Script.gateway (edited.session.world Session.broken)).notices
  let o := o.next o.session.reset [o.session.tracker.reset.2]
  let o := o.next (o.session.registerAll [1]) (o.session.tracker.registerAll o.session.heap [1]).2.2
  o.next (o.session.commit Script.gateway {})
    (o.session.tracker.commit Script.gateway (o.session.world {})).notices

theorem reachable_interrupted : interrupted.Reachable := by
  obtain ⟨s₀, hinitial, hsteps⟩ := reachable_edited
  exact ⟨s₀, hinitial, (((hsteps.tail (.commit Session.broken Script.orderly)).tail .reset).tail
    (.register [1])).tail (.commit {} Script.orderly)⟩

theorem told_faithfully_interrupted : interrupted.Faithful ∧ interrupted.told =
    [.tracked "tag" "a", .tracked "tag" "b", .patched "tag" "a" ⟨[("id", .string "x")]⟩,
      .failed "tag" "b" (.transport (.reported "down")), .reset 2, .tracked "tag" "b",
      .finished ⟨1, 0⟩] :=
  ⟨Reachable.told_faithfully reachable_interrupted, rfl⟩

end Observed

end ItemClient
