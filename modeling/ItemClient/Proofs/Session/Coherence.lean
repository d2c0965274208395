import Mathlib.Data.List.Pairwise
import ItemClient.Proofs.Registration.Refusal
import ItemClient.Proofs.Session.Snapshot

/-!
# Coherence of the tracked entities

Each entity is tracked at most once, at a place of its own in the order of registration, with a
snapshot of its type and the accessor of its collection. So nothing but these places decides the
order in which changes are listed and sent (`Tracked.mergeSort_precedes`), a snapshot always fits
its entity, and an operation can only fail for a reason outside of the unit of work: a missing
accessor, a refused PATCH, or an entity that is poisoned.

**Invariant** (`Session.Places`). Places ascend and are below the next one, and owners are the
accessors in the table. A registration adds places from the next one on; a sweep advances
snapshots and keeps all places (`Sweep.places_run`).

Main result: `Session.Reachable.coherent`.
-/

namespace ItemClient

/-! ## The order of registration -/

namespace Tracked

/-- What a sweep never changes of a tracked entity. -/
def place (t : Tracked) : EntityId × Accessor × Nat := (t.entity, t.owner, t.sequence)

/-- The order by place, and at one place by where the entities are in memory. -/
def precedes (address : EntityId → Nat) (a b : Tracked) : Bool :=
  a.sequence < b.sequence || (a.sequence = b.sequence && address a.entity ≤ address b.entity)

variable {address : EntityId → Nat} {a b c : Tracked}

theorem precedes_iff : precedes address a b = true ↔
    a.sequence < b.sequence ∨ (a.sequence = b.sequence ∧ address a.entity ≤ address b.entity) := by
  simp [precedes]

theorem precedes_trans (hab : precedes address a b = true) (hbc : precedes address b c = true) :
    precedes address a c = true := by
  rw [precedes_iff] at *
  omega

theorem precedes_total (address : EntityId → Nat) (a b : Tracked) :
    (precedes address a b || precedes address b a) = true := by
  rw [Bool.or_eq_true, precedes_iff, precedes_iff]
  omega

/-- **Entities with ascending places are in the only order there is**: whatever order they are
taken out of a table in, and wherever they are in memory, sorting puts them back. -/
theorem mergeSort_precedes {records ts : List Tracked}
    (hplaces : (records.map sequence).Pairwise (· < ·)) (address : EntityId → Nat)
    (hperm : ts.Perm records) : ts.mergeSort (precedes address) = records := by
  have hrecords : records.Pairwise fun a b => a.sequence < b.sequence := List.pairwise_map.1 hplaces
  have hsorted : records.Pairwise fun a b => precedes address a b = true :=
    hrecords.imp fun h => precedes_iff.2 (.inl h)
  have hmerged := @List.pairwise_mergeSort _ (precedes address) (fun _ _ _ => precedes_trans)
    (precedes_total address) ts
  refine List.Perm.eq_of_pairwise (fun a b ha hb hab hba => ?_) hmerged hsorted
    ((List.mergeSort_perm ts _).trans hperm)
  -- Two entities before each other are at one place, and there is one entity at each.
  have ha : a ∈ records := hperm.mem_iff.1 (List.mem_mergeSort.1 ha)
  rw [precedes_iff] at hab hba
  have hnodup : (records.map sequence).Nodup := hplaces.imp Nat.ne_of_lt
  exact List.inj_on_of_nodup_map hnodup ha hb (by omega)

end Tracked

/-- **A sweep keeps all places.** -/
theorem Sweep.places_run {σ : Type} (g : Gateway σ) (ts : List Tracked) (world : World σ) :
    (run g ts world).records.map Tracked.place = ts.map Tracked.place := by
  induction ts, world using run.induct g with
  | case1 world => rfl
  | case2 t ts world e h => rw [run_of_failed h, stopped]
  | case3 t ts world h ih => rw [run_of_clean h, keep, List.map_cons, ih, List.map_cons]
  | case4 t ts world p candidate h a world' hp ih =>
    rw [run_of_acknowledged h hp, advance, List.map_cons, ih, List.map_cons]
    rfl
  | case5 t ts world p candidate h e world' hp => rw [run_of_refused h hp, stopped]

/-! ## Why a comparison fails -/

/-- A comparison of records fails only for a related record without a key. -/
theorem Record.exists_of_diffMembers_eq_error {ρ : Type} {reference : ρ → Result Json}
    {ms : List Member} {vs ws : List (Value ρ)} {changes : ChangeSet} {e : Error}
    (h : diffMembers reference ms vs ws changes = .error e) : ∃ i, reference i = .error e := by
  have hreference : ∀ {related : Option ρ}, referenceOf? reference related = .error e →
      ∃ i, reference i = .error e := by
    intro related hrelated
    cases related with
    | none => cases hrelated
    | some i => exact ⟨i, Result.map_eq_error.1 hrelated⟩
  induction ms generalizing vs ws changes with
  | nil => cases h
  | cons m ms ih =>
    cases vs with
    | nil => cases h
    | cons v vs =>
      cases ws with
      | nil => cases h
      | cons w ws =>
        cases v with
        | scalar live => cases w <;> exact ih h
        | many live => cases w <;> exact ih h
        | one live =>
          cases w with
          | one prior =>
            rcases Result.bind_eq_error.1 h with h | ⟨a, -, h⟩
            · exact hreference h
            · rcases Result.bind_eq_error.1 h with h | ⟨b, -, h⟩
              · exact hreference h
              · exact ih h
          | _ => exact ih h

namespace Heap

variable {heap : Heap} {id : EntityId} {e : Error}

/-- What cannot be read is poisoned. -/
theorem eq_poisoned_of_read (h : heap.read id = .error e) : e = .poisoned := by
  unfold read at h
  split at h
  · cases h
  · exact (Except.error.inj h).symm

/-- What roots in the heap reach is in the heap. -/
theorem lt_size_of_reaches {roots : List EntityId} (hheap : heap.WellFormed)
    (hroots : ∀ id ∈ roots, id < heap.size) (h : heap.Reaches roots id) : id < heap.size := by
  induction h with
  | root hid => exact hroots _ hid
  | related _ hrelated hchild _ =>
    obtain ⟨r, hread, rfl⟩ := Result.map_eq_ok.1 hrelated
    exact (hheap _ _ (record?_of_read hread)).2 _ hchild

/-- In a sound heap every entity can be read. -/
theorem IsSound.isReadable (hsound : heap.IsSound) (hid : id < heap.size) :
    heap.isReadable id = true := by
  obtain ⟨r, hr⟩ := Option.isSome_iff_exists.1 (record?_isSome_iff.2 hid)
  exact isReadable_iff.2 ⟨r, read_of_record? hr (hsound id)⟩

end Heap

namespace Tracked.Fits

variable {heap : Heap} {t : Tracked} {e : Error}

/-- A snapshot that fits is seen as what it is. -/
theorem snapshotIdentity (h : t.Fits heap) :
    heap.snapshotIdentity t.entity t.original = .ok t.original.key.identity :=
  Result.map_eq_ok.2 ⟨t.original, Heap.snapshotOf_eq_ok.2 ⟨h.schema, rfl⟩, rfl⟩

/-- **A snapshot that fits can be compared** with its entity, unless something is poisoned. -/
theorem of_diff_eq_error (hheap : heap.WellFormed) (h : t.Fits heap)
    (he : heap.diff t.entity t.original = .error e) : e = .poisoned ∧ ¬ heap.IsSound := by
  constructor
  · rcases Result.bind_eq_error.1 he with he | ⟨prior, -, he⟩
    · rw [Heap.snapshotOf_eq_ok.2 ⟨h.schema, rfl⟩] at he
      cases he
    · rcases Result.bind_eq_error.1 he with he | ⟨live, -, he⟩
      · exact Heap.eq_poisoned_of_read he
      · obtain ⟨i, hi⟩ := Record.exists_of_diffMembers_eq_error he
        exact Heap.eq_poisoned_of_read (Result.map_eq_error.1 hi)
  · intro hsound
    obtain ⟨live, changes, hdiffers⟩ := h.exists_differs hheap hsound
    rw [Heap.diff_eq_ok.2 ⟨hdiffers.schema, live, hdiffers.read, hdiffers.diff⟩] at he
    cases he

theorem of_pending?_eq_error (hheap : heap.WellFormed) (h : t.Fits heap)
    (he : t.pending? heap = .error e) : e = .poisoned ∧ ¬ heap.IsSound := by
  rcases Result.bind_eq_error.1 he with he | ⟨changes, -, he⟩
  · exact h.of_diff_eq_error hheap he
  · split at he
    · cases he
    · rcases Result.bind_eq_error.1 he with he | ⟨identity, -, he⟩
      · rw [h.snapshotIdentity] at he
        cases he
      · cases he

theorem of_prepare_eq_error (hheap : heap.WellFormed) (h : t.Fits heap)
    (he : Sweep.prepare heap t = .error e) : e = .poisoned ∧ ¬ heap.IsSound := by
  rcases Result.bind_eq_error.1 he with hread | ⟨candidate, -, he⟩
  · refine ⟨Heap.eq_poisoned_of_read hread, fun hsound => ?_⟩
    obtain ⟨live, changes, hdiffers⟩ := h.exists_differs hheap hsound
    rw [hdiffers.read] at hread
    cases hread
  · rcases Result.bind_eq_error.1 he with he | ⟨pending, -, he⟩
    · exact h.of_pending?_eq_error hheap he
    · cases he

end Tracked.Fits

/-- A sweep fails at a turn where nothing can be prepared, or with the PATCH that is refused. -/
theorem Sweep.exists_of_run_eq_error {σ : Type} {g : Gateway σ} {ts : List Tracked}
    {world : World σ} {e : Error} (h : (run g ts world).result = .error e) :
    (∃ turn ∈ turns g ts world, prepare turn.world.heap turn.tracked = .error e) ∨
      ∃ x ∈ patches g ts world, ∃ source, x.answer = .error source ∧
        e = .persistence x.pending.collection x.pending.identity source := by
  induction ts, world using run.induct g generalizing e with
  | case1 world => cases h
  | case2 t ts world e' hprepare =>
    rw [run_of_failed hprepare] at h
    cases h
    rw [turns_of_failed hprepare]
    exact .inl ⟨_, List.mem_cons_self, hprepare⟩
  | case3 t ts world hprepare ih =>
    rw [run_of_clean hprepare] at h
    rw [turns_of_clean hprepare, patches_of_clean hprepare]
    refine (ih h).imp_left ?_
    rintro ⟨turn, hturn, he⟩
    exact ⟨turn, List.mem_cons_of_mem _ hturn, he⟩
  | case4 t ts world p candidate hprepare a world' hp ih =>
    rw [run_of_acknowledged hprepare hp] at h
    rw [turns_of_acknowledged hprepare hp, patches_of_acknowledged hprepare hp]
    refine (ih (Result.map_eq_error.1 h)).imp ?_ ?_
    · rintro ⟨turn, hturn, he⟩
      exact ⟨turn, List.mem_cons_of_mem _ hturn, he⟩
    · rintro ⟨x, hx, he⟩
      exact ⟨x, List.mem_cons_of_mem _ hx, he⟩
  | case5 t ts world p candidate hprepare e' world' hp =>
    rw [run_of_refused hprepare hp] at h
    cases h
    rw [patches_of_refused hprepare hp]
    exact .inr ⟨_, List.mem_cons_self, e', rfl, rfl⟩

namespace Session

variable {s s' : Session}

/-! ## The invariant -/

/-- Places ascend and are below the next one, and owners are those in the table. -/
structure Places (s : Session) : Prop where
  ascending : (s.tracker.records.map Tracked.sequence).Pairwise (· < ·)
  below : ∀ t ∈ s.tracker.records, t.sequence < s.tracker.nextSequence
  owners : ∀ t ∈ s.tracker.records,
    s.tracker.accessors.resolve (s.heap.collection t.entity) = .ok t.owner

theorem Places.of_nil (h : s.tracker.records = []) : s.Places := by
  constructor <;> simp [h]

/-- The collection of a tracked entity stays. -/
theorem Inv.collection_eq (inv : s.Inv) {heap : Heap} (hchanges : s.heap.Changes heap) {t : Tracked}
    (ht : t ∈ s.tracker.records) : heap.collection t.entity = s.heap.collection t.entity := by
  have hfits := (inv.faithful t ht).fits
  rw [hfits.collection, (hfits.mono hchanges.keeps).collection]

theorem Places.registerAll (places : s.Places) (roots : List EntityId) :
    (s.registerAll roots).Places := by
  unfold Session.registerAll
  cases hresult : s.tracker.registerAll s.heap roots with
  | mk result rest =>
  obtain ⟨tracker, notices⟩ := rest
  cases result with
  | error e =>
    obtain rfl := UnitOfWork.registerAll_eq_error hresult
    exact ⟨places.ascending, places.below, places.owners⟩
  | ok n =>
    obtain ⟨found, hfound, -, rfl⟩ := UnitOfWork.registerAll_eq_ok hresult
    have hnew : ∀ t ∈ Discovery.track s.tracker.nextSequence found,
        s.tracker.nextSequence ≤ t.sequence ∧
          t.sequence < s.tracker.nextSequence + found.length := by
      intro t ht
      have hmem := List.mem_map_of_mem (f := Tracked.sequence) ht
      rwa [Discovery.sequences_track, List.mem_range'_1] at hmem
    constructor
    case ascending =>
      show ((s.tracker.records ++ Discovery.track _ found).map Tracked.sequence).Pairwise _
      rw [List.map_append, List.pairwise_append, Discovery.sequences_track]
      refine ⟨places.ascending, List.pairwise_lt_range', fun a ha b hb => ?_⟩
      obtain ⟨t, ht, rfl⟩ := List.mem_map.1 ha
      exact (places.below t ht).trans_le (List.mem_range'_1.1 hb).1
    case below =>
      intro t ht
      show t.sequence < s.tracker.nextSequence + found.length
      rcases List.mem_append.1 ht with ht | ht
      · exact (places.below t ht).trans_le (Nat.le_add_right _ _)
      · exact (hnew t ht).2
    case owners =>
      intro t ht
      rcases List.mem_append.1 ht with ht | ht
      · exact places.owners t ht
      · obtain ⟨d, hd, hentity, -, howner⟩ := Discovery.mem_track ht
        rw [hentity, howner]
        exact (hfound.current d hd).owner

theorem Places.commit {σ : Type} {g : Gateway σ} (places : s.Places) (inv : s.Inv)
    (hg : g.Orderly) (far : σ) : (s.commit g far).Places := by
  unfold Session.commit
  cases hresult : (Sweep.run g s.tracker.records (s.world far)).result with
  | ok n =>
    rw [UnitOfWork.commit_of_ok hresult]
    exact .of_nil rfl
  | error e =>
    rw [UnitOfWork.commit_of_error hresult]
    have hplaces := Sweep.places_run g s.tracker.records (s.world far)
    have hsequences : ((Sweep.run g s.tracker.records (s.world far)).records.map Tracked.sequence)
        = s.tracker.records.map Tracked.sequence := by
      simpa [Tracked.place, Function.comp_def] using congrArg (List.map (·.2.2)) hplaces
    -- What is tracked afterwards was tracked before, at the same place.
    have hbefore : ∀ t ∈ (Sweep.run g s.tracker.records (s.world far)).records,
        ∃ t' ∈ s.tracker.records, t'.place = t.place := fun t ht =>
      List.mem_map.1 (hplaces ▸ List.mem_map_of_mem ht)
    constructor
    case ascending => exact hsequences ▸ places.ascending
    case below =>
      intro t ht
      obtain ⟨t', ht', hplace⟩ := hbefore t ht
      have hsequence : t'.sequence = t.sequence := congrArg (·.2.2) hplace
      exact hsequence ▸ places.below t' ht'
    case owners =>
      intro t ht
      obtain ⟨t', ht', hplace⟩ := hbefore t ht
      have hentity : t'.entity = t.entity := congrArg (·.1) hplace
      have howner : t'.owner = t.owner := congrArg (·.2.1) hplace
      have hchanges := Sweep.changes_run hg s.tracker.records (s.world far)
      rw [← hentity, ← howner]
      exact (inv.collection_eq hchanges ht').symm ▸ places.owners t' ht'

/-- **Every step keeps the places.** -/
theorem Places.step (places : s.Places) (inv : s.Inv) (h : Step s s') : s'.Places := by
  cases h with
  | change hchange =>
    refine ⟨places.ascending, places.below, fun t ht => ?_⟩
    exact (inv.collection_eq (.single hchange) ht).symm ▸ places.owners t ht
  | register roots => exact places.registerAll roots
  | commit far hg => exact places.commit inv hg far
  | reset => exact .of_nil rfl

theorem Reachable.places (h : s.Reachable) : s.Places := by
  obtain ⟨s₀, hinitial, hsteps⟩ := h
  induction hsteps with
  | refl => exact .of_nil hinitial.records
  | tail hsteps hstep ih => exact ih.step (Reachable.inv ⟨s₀, hinitial, hsteps⟩) hstep

/-- The next place never goes down. -/
theorem Step.nextSequence_le (h : Step s s') :
    s.tracker.nextSequence ≤ s'.tracker.nextSequence := by
  cases h with
  | change hchange => exact le_rfl
  | register roots =>
    show s.tracker.nextSequence ≤ (s.tracker.registerAll s.heap roots).2.1.nextSequence
    unfold UnitOfWork.registerAll
    split
    · exact Nat.le_add_right _ _
    · exact le_rfl
  | @commit σ g far hg =>
    show _ ≤ (s.tracker.commit g (s.world far)).tracker.nextSequence
    cases hresult : (Sweep.run g s.tracker.records (s.world far)).result with
    | ok n =>
      rw [UnitOfWork.commit_of_ok hresult]
      exact le_rfl
    | error e =>
      rw [UnitOfWork.commit_of_error hresult]
      exact le_rfl
  | reset => exact le_rfl

/-! ## Coherence -/

/-- What holds of the tracked entities at any time, and why operations can fail at all. -/
structure Coherent (s : Session) : Prop where
  /-- Each entity is tracked at most once. -/
  once : s.tracker.entities.Nodup
  /-- Places ascend, so they differ, and are below the next one, which never goes down. -/
  ascending : (s.tracker.records.map Tracked.sequence).Pairwise (· < ·)
  below : ∀ t ∈ s.tracker.records, t.sequence < s.tracker.nextSequence
  grows : ∀ s', Relation.ReflTransGen Step s s' →
    s.tracker.nextSequence ≤ s'.tracker.nextSequence
  /-- The places alone decide the order: neither where the entities are in memory nor in which
  order they are kept has a say. -/
  order : ∀ (address : EntityId → Nat) (ts : List Tracked), ts.Perm s.tracker.records →
    ts.mergeSort (Tracked.precedes address) = s.tracker.records
  /-- A snapshot is of the type of its entity, so it is never refused as one of another type. -/
  types : ∀ t ∈ s.tracker.records, s.heap.schema? t.entity = some t.original.schema
  identities : ∀ t ∈ s.tracker.records,
    s.heap.snapshotIdentity t.entity t.original = .ok t.original.key.identity
  diffs : ∀ t ∈ s.tracker.records, ∀ e, s.heap.diff t.entity t.original = .error e →
    e = .poisoned ∧ ¬ s.heap.IsSound
  /-- The owner is the accessor of the collection. -/
  owners : ∀ t ∈ s.tracker.records,
    s.tracker.accessors.resolve (s.heap.collection t.entity) = .ok t.owner
  /-- A registration fails for a missing accessor, or because something is poisoned. -/
  registrations : ∀ roots, (∀ id ∈ roots, id < s.heap.size) →
    ∀ e, (s.tracker.registerAll s.heap roots).1 = .error e →
      (∃ id, s.heap.Reaches roots id ∧ id ∉ s.tracker.entities ∧
        s.tracker.accessors.get? (s.heap.collection id) = none ∧
        e = AccessorTable.missing (s.heap.collection id)) ∨
      (e = .poisoned ∧ ¬ s.heap.IsSound)
  /-- A commit fails for a PATCH that is refused, or because something is poisoned by the time of
  some turn. -/
  commits : ∀ {σ : Type} (g : Gateway σ) (far : σ), g.Orderly →
    ∀ e, (s.tracker.commit g (s.world far)).result = .error e →
      (∃ x ∈ Sweep.patches g s.tracker.records (s.world far), ∃ source,
        x.answer = .error source ∧
          e = .persistence x.pending.collection x.pending.identity source) ∨
      (e = .poisoned ∧ ∃ turn ∈ Sweep.turns g s.tracker.records (s.world far),
        ¬ turn.world.heap.IsSound)
  /-- What waits to be sent can be listed, unless something is poisoned. -/
  pendings : ∀ e, s.tracker.pending s.heap = .error e → e = .poisoned ∧ ¬ s.heap.IsSound

/-- Why a registration fails. -/
theorem Inv.of_registerAll_eq_error (inv : s.Inv) {roots : List EntityId} {e : Error}
    (hroots : ∀ id ∈ roots, id < s.heap.size)
    (he : (s.tracker.registerAll s.heap roots).1 = .error e) :
    (∃ id, s.heap.Reaches roots id ∧ id ∉ s.tracker.entities ∧
      s.tracker.accessors.get? (s.heap.collection id) = none ∧
      e = AccessorTable.missing (s.heap.collection id)) ∨ (e = .poisoned ∧ ¬ s.heap.IsSound) := by
  obtain ⟨id, hid, hrefusal⟩ :=
    List.exists_of_findSome?_eq_some (UnitOfWork.registerAll_eq_error_iff.1 he)
  have hreached := Heap.mem_breadthFirst_iff.1 hid
  unfold UnitOfWork.refusal? at hrefusal
  split at hrefusal
  · rename_i hmissing
    exact .inl ⟨id, hreached, hmissing.1, hmissing.2, (Option.some.inj hrefusal).symm⟩
  · split at hrefusal
    · cases hrefusal
    · rename_i hunreadable
      have hlt := Heap.lt_size_of_reaches inv.heap hroots hreached
      exact .inr ⟨(Option.some.inj hrefusal).symm, fun hsound =>
        hunreadable (hsound.isReadable hlt)⟩

/-- Why a commit fails. -/
theorem Inv.of_commit_eq_error {σ : Type} {g : Gateway σ} {far : σ} {e : Error} (inv : s.Inv)
    (hg : g.Orderly) (he : (s.tracker.commit g (s.world far)).result = .error e) :
    (∃ x ∈ Sweep.patches g s.tracker.records (s.world far), ∃ source, x.answer = .error source ∧
        e = .persistence x.pending.collection x.pending.identity source) ∨
      (e = .poisoned ∧ ∃ turn ∈ Sweep.turns g s.tracker.records (s.world far),
        ¬ turn.world.heap.IsSound) := by
  cases hresult : (Sweep.run g s.tracker.records (s.world far)).result with
  | ok n =>
    rw [UnitOfWork.commit_of_ok hresult] at he
    cases he
  | error e' =>
    rw [UnitOfWork.commit_of_error hresult] at he
    cases he
    rcases Sweep.exists_of_run_eq_error hresult with ⟨turn, hturn, hprepare⟩ | hrefused
    · have hkeeps := (Sweep.changes_turns hg hturn).keeps
      have hfits := (inv.faithful _ (Sweep.mem_of_mem_turns hturn)).fits.mono hkeeps
      obtain ⟨hpoisoned, hunsound⟩ :=
        hfits.of_prepare_eq_error (hkeeps.wellFormed inv.heap) hprepare
      exact .inr ⟨hpoisoned, turn, hturn, hunsound⟩
    · exact .inl hrefused

/-- **The tracked entities are coherent at any time.** -/
theorem Reachable.coherent (h : s.Reachable) : s.Coherent := by
  have inv := h.inv
  have places := h.places
  constructor
  case once => exact inv.nodup
  case ascending => exact places.ascending
  case below => exact places.below
  case grows =>
    intro s' hsteps
    induction hsteps with
    | refl => exact le_rfl
    | tail _ hstep ih => exact ih.trans hstep.nextSequence_le
  case order =>
    exact fun address ts hperm => Tracked.mergeSort_precedes places.ascending address hperm
  case types => exact fun t ht => (inv.faithful t ht).fits.schema
  case identities => exact fun t ht => (inv.faithful t ht).fits.snapshotIdentity
  case diffs => exact fun t ht e he => (inv.faithful t ht).fits.of_diff_eq_error inv.heap he
  case owners => exact places.owners
  case registrations => exact fun roots hroots e he => inv.of_registerAll_eq_error hroots he
  case commits => exact fun g far hg e he => inv.of_commit_eq_error hg he
  case pendings =>
    intro e he
    obtain ⟨t, ht, herror⟩ := Result.exists_of_mapM_eq_error (Result.map_eq_error.1 he)
    exact (inv.faithful t ht).fits.of_pending?_eq_error inv.heap herror

/-- After the commit that broke off all is dropped, and the second tag is tracked again. -/
def trackedAgain : Session := renamed.reset.registerAll [1]

theorem coherent_trackedAgain :
    trackedAgain.Coherent ∧ trackedAgain.tracker.records.map Tracked.sequence = [2] ∧
      trackedAgain.tracker.nextSequence = 3 := by
  have hrenamed : renamed.Reachable := reachable_edited.commit Script.orderly _
  exact ⟨Reachable.coherent ((hrenamed.tail .reset).tail (.register [1])), rfl, rfl⟩

end Session

end ItemClient
