import ItemClient.Proofs.Commit.Turns
import ItemClient.Proofs.Entity.Change

/-!
# What is there to send

The specification of `Tracked.pending?` and `Sweep.prepare`: both compare the record that can be
read at an address with the snapshot (`Tracked.Differs`), and what is there to send bears the key
of the snapshot. `Tracked.Fits` says that a snapshot is one of the entity, and
`Heap.IsReady` that the entity can be read and compared; together they make sure that both go well
(`Tracked.Fits.exists_differs`), and an advanced snapshot leaves nothing to send
(`Tracked.pending?_advanced`).
-/

namespace ItemClient

/-- The live entity of `t` holds `live`, and `changes` is how it differs from the snapshot. -/
structure Tracked.Differs (heap : Heap) (t : Tracked) (live : Record EntityId)
    (changes : ChangeSet) : Prop where
  schema : heap.schema? t.entity = some t.original.schema
  read : heap.read t.entity = .ok live
  diff : live.diff heap.reference t.original = .ok changes

/-- What is sent of changes. -/
def Tracked.pendingOf (heap : Heap) (t : Tracked) (changes : ChangeSet) : Option Pending :=
  if changes.isEmpty then none
  else some { collection := heap.collection t.entity, identity := t.original.key.identity, changes }

namespace Heap

variable {heap : Heap} {id : EntityId} {snapshot : Snapshot}

theorem snapshotOf_eq_ok {prior : Snapshot} :
    heap.snapshotOf id snapshot = .ok prior ↔
      heap.schema? id = some snapshot.schema ∧ prior = snapshot := by
  unfold snapshotOf
  cases hs : heap.schema? id with
  | none => simp
  | some s =>
    dsimp only
    split
    · rename_i heq
      simp [heq, eq_comm]
    · rename_i hne
      simp [Ne.symm hne]

theorem schema?_of_read {r : Record EntityId} (h : heap.read id = .ok r) :
    heap.schema? id = some r.schema := by
  rw [schema?_eq, record?_of_read h, Option.map_some]

theorem diff_eq_ok {changes : ChangeSet} :
    heap.diff id snapshot = .ok changes ↔ heap.schema? id = some snapshot.schema ∧
      ∃ live, heap.read id = .ok live ∧ live.diff heap.reference snapshot = .ok changes := by
  unfold diff
  rw [Result.bind_eq_ok]
  constructor
  · rintro ⟨prior, hprior, h⟩
    obtain ⟨hs, rfl⟩ := snapshotOf_eq_ok.1 hprior
    exact ⟨hs, Result.bind_eq_ok.1 h⟩
  · rintro ⟨hs, h⟩
    exact ⟨snapshot, snapshotOf_eq_ok.2 ⟨hs, rfl⟩, Result.bind_eq_ok.2 h⟩

/-- A comparison looks at what is at the address, and at the keys that it and the snapshot refer
to. -/
theorem diff_congr {heap' : Heap} (hschema : heap'.schema? id = heap.schema? id)
    (hread : heap'.read id = heap.read id)
    (hlive : ∀ live, heap.read id = .ok live → ∀ i, Value.one (some i) ∈ live.values →
      heap'.reference i = heap.reference i)
    (hprior : ∀ i, Value.one (some i) ∈ snapshot.values → heap'.reference i = heap.reference i) :
    heap'.diff id snapshot = heap.diff id snapshot := by
  rw [diff, diff, snapshotOf, snapshotOf, hschema, hread]
  cases hs : heap.snapshotOf id snapshot with
  | error e =>
    rw [snapshotOf] at hs
    rw [hs]
    rfl
  | ok prior =>
    obtain ⟨-, rfl⟩ := snapshotOf_eq_ok.1 hs
    rw [snapshotOf] at hs
    rw [hs]
    cases hr : heap.read id with
    | error e => rfl
    | ok live => exact Record.diff_congr (hlive live hr) hprior

end Heap

namespace Tracked

variable {heap : Heap} {t : Tracked}

theorem pending?_congr {heap' : Heap} (hschema : heap'.schema? t.entity = heap.schema? t.entity)
    (hdiff : heap'.diff t.entity t.original = heap.diff t.entity t.original) :
    t.pending? heap' = t.pending? heap := by
  rw [pending?, pending?, hdiff, Heap.snapshotIdentity, Heap.snapshotIdentity, Heap.snapshotOf,
    Heap.snapshotOf, Heap.collection, Heap.collection, hschema]

/-- **What waits to be sent** is how the live entity differs from the snapshot. -/
theorem pending?_eq_ok {o : Option Pending} :
    t.pending? heap = .ok o ↔
      ∃ live changes, t.Differs heap live changes ∧ o = t.pendingOf heap changes := by
  unfold pending?
  rw [Result.bind_eq_ok]
  constructor
  · rintro ⟨changes, hdiff, h⟩
    obtain ⟨hs, live, hread, hlive⟩ := Heap.diff_eq_ok.1 hdiff
    refine ⟨live, changes, ⟨hs, hread, hlive⟩, ?_⟩
    unfold pendingOf
    split at h
    · rw [if_pos ‹_›]
      exact (Result.pure_eq_ok.1 h).symm
    · rw [if_neg ‹_›]
      obtain ⟨identity, hid, h⟩ := Result.bind_eq_ok.1 h
      obtain ⟨prior, hprior, rfl⟩ := Result.map_eq_ok.1 hid
      obtain ⟨-, rfl⟩ := Heap.snapshotOf_eq_ok.1 hprior
      exact (Result.pure_eq_ok.1 h).symm
  · rintro ⟨live, changes, h, rfl⟩
    refine ⟨changes, Heap.diff_eq_ok.2 ⟨h.schema, live, h.read, h.diff⟩, ?_⟩
    unfold pendingOf
    split
    · rfl
    · have hid : heap.snapshotIdentity t.entity t.original = .ok t.original.key.identity :=
        Result.map_eq_ok.2 ⟨t.original, Heap.snapshotOf_eq_ok.2 ⟨h.schema, rfl⟩, rfl⟩
      exact Result.bind_eq_ok.2 ⟨_, hid, rfl⟩

/-- **What is prepared** is what waits to be sent, along with the record as it stands. -/
theorem prepare_eq_ok {o : Option (Pending × Snapshot)} :
    Sweep.prepare heap t = .ok o ↔
      ∃ live changes, t.Differs heap live changes ∧
        o = (t.pendingOf heap changes).map (·, live) := by
  unfold Sweep.prepare
  rw [Result.bind_eq_ok]
  constructor
  · rintro ⟨candidate, hread, h⟩
    obtain ⟨pending, hpending, h⟩ := Result.bind_eq_ok.1 h
    obtain ⟨live, changes, hdiffers, rfl⟩ := pending?_eq_ok.1 hpending
    have hlive : live = candidate := Except.ok.inj (hdiffers.read.symm.trans hread)
    subst hlive
    exact ⟨live, changes, hdiffers, (Result.pure_eq_ok.1 h).symm⟩
  · rintro ⟨live, changes, h, rfl⟩
    exact ⟨live, h.read, Result.bind_eq_ok.2 ⟨_, pending?_eq_ok.2 ⟨live, changes, h, rfl⟩, rfl⟩⟩

theorem pendingOf_eq_none {changes : ChangeSet} :
    t.pendingOf heap changes = none ↔ changes.isEmpty = true := by
  unfold pendingOf
  split <;> simp [*]

theorem pendingOf_eq_some {changes : ChangeSet} {p : Pending}
    (h : t.pendingOf heap changes = some p) :
    p.collection = heap.collection t.entity ∧ p.identity = t.original.key.identity ∧
      p.changes = changes := by
  unfold pendingOf at h
  split at h
  · cases h
  · cases h
    exact ⟨rfl, rfl, rfl⟩

/-- Nothing is prepared when nothing changed. -/
theorem prepare_eq_none :
    Sweep.prepare heap t = .ok none ↔
      ∃ live changes, t.Differs heap live changes ∧ changes.isEmpty = true := by
  rw [prepare_eq_ok]
  constructor
  · rintro ⟨live, changes, hdiffers, hnone⟩
    exact ⟨live, changes, hdiffers, pendingOf_eq_none.1 (Option.map_eq_none_iff.1 hnone.symm)⟩
  · rintro ⟨live, changes, hdiffers, hempty⟩
    refine ⟨live, changes, hdiffers, ?_⟩
    rw [pendingOf_eq_none.2 hempty, Option.map_none]

/-- What is prepared is what waits to be sent, along with the record that it was computed from. -/
theorem prepare_eq_some {p : Pending} {candidate : Snapshot}
    (h : Sweep.prepare heap t = .ok (some (p, candidate))) :
    t.Differs heap candidate p.changes ∧ t.pendingOf heap p.changes = some p := by
  obtain ⟨live, changes, hdiffers, hsome⟩ := prepare_eq_ok.1 h
  obtain ⟨p', hp', heq⟩ := Option.map_eq_some_iff.1 hsome.symm
  cases heq
  obtain ⟨-, -, rfl⟩ := pendingOf_eq_some hp'
  exact ⟨hdiffers, hp'⟩

theorem pending?_of_prepare_none (h : Sweep.prepare heap t = .ok none) :
    t.pending? heap = .ok none := by
  obtain ⟨live, changes, hdiffers, hempty⟩ := prepare_eq_none.1 h
  exact pending?_eq_ok.2 ⟨live, changes, hdiffers, (pendingOf_eq_none.2 hempty).symm⟩

theorem pending?_of_prepare {p : Pending} {candidate : Snapshot}
    (h : Sweep.prepare heap t = .ok (some (p, candidate))) : t.pending? heap = .ok (some p) := by
  obtain ⟨hdiffers, hp⟩ := prepare_eq_some h
  exact pending?_eq_ok.2 ⟨candidate, p.changes, hdiffers, hp.symm⟩

/-- What is sent at a turn waits to be sent then. -/
theorem pending?_of_turn {σ : Type} {turn : Sweep.Turn σ} {p : Pending}
    (h : turn.pending? = some p) : turn.tracked.pending? turn.world.heap = .ok (some p) := by
  obtain ⟨⟨p', candidate⟩, hjoin, rfl⟩ := Option.map_eq_some_iff.1 h
  cases hprepare : Sweep.prepare turn.world.heap turn.tracked with
  | error e => simp [hprepare, Except.toOption] at hjoin
  | ok o =>
    obtain rfl : o = some (p', candidate) := by simpa [hprepare, Except.toOption] using hjoin
    exact pending?_of_prepare hprepare

/-! ## When the comparison goes well -/

/-- A snapshot is one of the entity, and the accessor the one of its collection. -/
structure Fits (heap : Heap) (t : Tracked) : Prop where
  schema : heap.schema? t.entity = some t.original.schema
  wellFormed : t.original.WellFormed
  closes : heap.Closes t.original
  owner : t.owner.collection = t.original.schema.collection

theorem Fits.exists_record (h : t.Fits heap) :
    ∃ r, heap.record? t.entity = some r ∧ r.schema = t.original.schema := by
  have hs := h.schema
  rwa [Heap.schema?_eq, Option.map_eq_some_iff] at hs

/-- A snapshot that fits is of the type of the entity. -/
theorem Fits.schema_eq {live : Record EntityId} (h : t.Fits heap)
    (hlive : heap.record? t.entity = some live) : t.original.schema = live.schema := by
  have hs := h.schema
  rw [Heap.schema?_eq, hlive] at hs
  exact (Option.some.inj hs).symm

/-- A tracked entity is one of the heap. -/
theorem Fits.lt_size (h : t.Fits heap) : t.entity < heap.size := by
  obtain ⟨r, hr, -⟩ := h.exists_record
  exact Heap.lt_size_of_record? hr

theorem Fits.mono {heap' : Heap} (hkeeps : heap.Keeps heap') (h : t.Fits heap) : t.Fits heap' where
  schema := by
    rw [hkeeps.schema? _ h.lt_size, h.schema]
  wellFormed := h.wellFormed
  closes := h.closes.mono hkeeps.size
  owner := h.owner

/-- A snapshot that is taken now fits. -/
theorem Fits.advance {live : Record EntityId} (hheap : heap.WellFormed) (h : t.Fits heap)
    (hread : heap.read t.entity = .ok live) : ({ t with original := live } : Tracked).Fits heap := by
  have hs := Heap.schema?_of_read hread
  have hlive := hheap _ _ (Heap.record?_of_read hread)
  have hschema : t.original.schema = live.schema := Option.some.inj (h.schema.symm.trans hs)
  exact ⟨hs, hlive.1, hlive.2, h.owner.trans (by rw [hschema])⟩

theorem Fits.collection (h : t.Fits heap) :
    heap.collection t.entity = t.original.schema.collection := by
  rw [Heap.collection, h.schema]
  rfl

end Tracked

namespace Heap

variable {heap : Heap}

/-- The entity at an address can be read and holds no NaN. -/
def IsReady (heap : Heap) (id : EntityId) : Prop := ∃ r, heap.read id = .ok r ∧ r.IsOrdinary

/-- Nothing is poisoned. -/
def IsSound (heap : Heap) : Prop := ∀ id, heap.isPoisoned id = false

/-- In a sound heap all that relations lead to has a key to refer to. -/
theorem Closes.refers {r : Record EntityId} (hsound : heap.IsSound) (h : heap.Closes r) :
    Record.Refers heap.reference r.values := by
  intro i hi
  have hlt : i < heap.size := h i (Record.mem_related.2 ⟨_, hi, .inl rfl⟩)
  obtain ⟨r', hr'⟩ := Option.isSome_iff_exists.1 (record?_isSome_iff.2 hlt)
  exact ⟨_, Result.map_eq_ok.2 ⟨r', read_of_record? hr' (hsound i), rfl⟩⟩

end Heap

namespace Tracked

variable {heap : Heap} {t : Tracked}

/-- In a sound heap a snapshot that fits can be compared with its entity. -/
theorem Fits.exists_differs (hheap : heap.WellFormed) (hsound : heap.IsSound) (h : t.Fits heap) :
    ∃ live changes, t.Differs heap live changes := by
  obtain ⟨live, hrecord, -⟩ := h.exists_record
  have hlive := (hheap _ _ hrecord).2
  obtain ⟨changes, hdiff⟩ := Record.exists_diff (hlive.refers hsound) (h.closes.refers hsound)
  exact ⟨live, changes, h.schema, Heap.read_of_record? hrecord (hsound _), hdiff⟩

theorem Fits.exists_pending? (hheap : heap.WellFormed) (hsound : heap.IsSound) (h : t.Fits heap) :
    ∃ o, t.pending? heap = .ok o := by
  obtain ⟨live, changes, hdiffers⟩ := h.exists_differs hheap hsound
  exact ⟨_, pending?_eq_ok.2 ⟨live, changes, hdiffers, rfl⟩⟩

/-- An entity that is as its snapshot says has nothing to send. -/
theorem pending?_of_read (hread : heap.read t.entity = .ok t.original)
    (hrefers : Record.Refers heap.reference t.original.values) (hordinary : t.original.IsOrdinary) :
    t.pending? heap = .ok none :=
  pending?_eq_ok.2 ⟨t.original, {},
    ⟨Heap.schema?_of_read hread, hread, Record.diff_self hrefers hordinary⟩, rfl⟩

/-- **An advanced snapshot leaves nothing to send.** -/
theorem pending?_advanced {live : Record EntityId} (hheap : heap.WellFormed)
    (hsound : heap.IsSound) (hordinary : live.IsOrdinary)
    (hread : heap.read t.entity = .ok live) :
    ({ t with original := live } : Tracked).pending? heap = .ok none := by
  have hlive := (hheap _ _ (Heap.record?_of_read hread)).2
  exact pending?_of_read hread (hlive.refers hsound) hordinary

end Tracked

end ItemClient
