import ItemClient.Proofs.Commit.Frame
import ItemClient.Proofs.Session.Reference

/-!
# Edits are local

An edit puts another record in place of one (`Heap.exists_write_of_edit`) and leaves all but one
member of it as they were. What is pending of a tracked entity is told from its own record, from its
snapshot, and from the keys of those that relations to one lead to, which are live. So an
edit that keeps the key is seen in the entry of the edited entity alone, under the edited member; an
edit of the key is seen also where a relation leads to the entity (`Tracked.LeadsTo`), and there
under that relation alone; and no edit changes the row that an entry is for.

Main result: `Session.Reachable.edit_local`.
-/

namespace ItemClient

/-! ## What an edit changes -/

namespace Edit

variable {r : Record EntityId} {e : Edit}

/-- The name of the member that an edit changes. -/
def wire (s : Schema) : Edit → String
  | key _ => s.keyWire
  | scalar wire _ | relate wire _ | attach wire _ | detach wire _ => wire

/-- Whether an edit changes the key. -/
def isOfKey : Edit → Bool
  | key _ => true
  | _ => false

/-- Whether an edit changes a relation to many. -/
def isOfMany : Edit → Bool
  | attach _ _ | detach _ _ => true
  | _ => false

theorem key_apply (r : Record EntityId) (h : e.isOfKey = false) : (e.apply r).key = r.key := by
  cases e <;> first | rfl | cases h

/-- Members under other names keep their values. -/
theorem value?_apply {wire : String} (hne : wire ≠ e.wire r.schema) :
    (e.apply r).value? wire = r.value? wire := by
  have hkeep : ∀ name v, wire ≠ name → (r.setValue name v).value? wire = r.value? wire := by
    intro name v hne
    rw [Record.value?_setValue]
    simp [hne]
  cases e with
  | key k => rfl
  | scalar name value => exact hkeep _ _ hne
  | relate name target => exact hkeep _ _ hne
  | attach name target => exact hkeep _ _ hne
  | detach name index => exact hkeep _ _ hne

/-- Where a relation to many is edited, it takes the place of one. -/
theorem exists_many_of_fits {heap : Heap} (hr : r.WellFormed) (hfits : e.fits heap r.schema = true)
    (hmany : e.isOfMany = true) :
    ∃ name related, e.apply r = r.setValue name (.many related) ∧
      ∀ v, r.value? name = some v → ∃ old, v = .many old := by
  have hold : ∀ {name model}, typeOf? r.schema name = some (.many model) →
      ∀ v, r.value? name = some v → ∃ old, v = .many old := by
    intro name model htype v hv
    obtain ⟨m, hm, hname⟩ := hr.value?_eq_some_iff.1 hv
    obtain ⟨w, -, -, hholds, -⟩ := Record.exists_zip_zip hr.values hr.values hm
    rw [type_of_typeOf? hr.wires htype m (List.of_mem_zip hm).1 hname] at hholds
    cases v with
    | many old => exact ⟨old, rfl⟩
    | _ => cases hholds
  cases e with
  | attach name target =>
    simp only [fits] at hfits
    split at hfits
    · exact ⟨name, _, rfl, hold ‹_›⟩
    · cases hfits
  | detach name index =>
    simp only [fits] at hfits
    split at hfits
    · exact ⟨name, _, rfl, hold ‹_›⟩
    · cases hfits
  | _ => cases hmany

end Edit

/-! ## Comparisons of edited records -/

namespace Record

variable {ρ : Type} {reference : ρ → Result Json} {live prior : Record ρ} {wire : String}

/-- Relations to many may hold anything. -/
theorem diffMembers_setMany {ms : List Member} {vs ws : List (Value ρ)} {related : List ρ}
    (hmany : ∀ m v, (m, v) ∈ ms.zip vs → m.wire = wire → ∃ old, v = .many old)
    (changes : ChangeSet) :
    diffMembers reference ms
        ((ms.zip vs).map fun (m, v) => if m.wire = wire then .many related else v) ws changes =
      diffMembers reference ms vs ws changes := by
  induction ms generalizing vs ws changes with
  | nil => rfl
  | cons m ms ih =>
    cases vs with
    | nil => rfl
    | cons v vs =>
      cases ws with
      | nil => rw [List.zip_cons_cons, List.map_cons]; cases v <;> rfl
      | cons w ws =>
        have hrest := fun changes =>
          @ih vs ws (fun m' v' hm' => hmany m' v' (List.mem_cons_of_mem _ hm')) changes
        rw [List.zip_cons_cons, List.map_cons]
        dsimp only
        split
        · obtain ⟨old, rfl⟩ := hmany m v List.mem_cons_self ‹_›
          cases w <;> exact hrest _
        · cases v <;> cases w <;> simp only [diffMembers, hrest]

theorem diff_setMany (hlive : live.WellFormed) {related : List ρ}
    (hmany : ∀ v, live.value? wire = some v → ∃ old, v = .many old) :
    (live.setValue wire (.many related)).diff reference prior = live.diff reference prior :=
  diffMembers_setMany (fun m v hm hmw => hmany v (hlive.value?_eq_some_iff.2 ⟨m, hm, hmw⟩)) _

end Record

/-! ## What is pending after an edit -/

/-- A relation to one of the live entity, or of the snapshot, leads to an entity. -/
def Tracked.LeadsTo (heap : Heap) (t : Tracked) (wire : String) (id : EntityId) : Prop :=
  (∃ live, heap.record? t.entity = some live ∧ live.value? wire = some (.one (some id))) ∨
    t.original.value? wire = some (.one (some id))

/-- What an entry says of a member; where there is no entry nothing is said. -/
def Pending.said? (o : Option Pending) (wire : String) : Option Json :=
  o.bind fun p => p.changes.get? wire

theorem Pending.said?_pendingOf (heap : Heap) (t : Tracked) (changes : ChangeSet) (wire : String) :
    said? (t.pendingOf heap changes) wire = changes.get? wire := by
  cases hp : t.pendingOf heap changes with
  | none => exact (ChangeSet.get?_of_isEmpty (Tracked.pendingOf_eq_none.1 hp) wire).symm
  | some p => exact congrArg (·.get? wire) (Tracked.pendingOf_eq_some hp).2.2

/-- **What an entry says**: of each member what the comparison with the snapshot notes. -/
theorem Tracked.Fits.said? {heap : Heap} {t : Tracked} (h : t.Fits heap) (hheap : heap.WellFormed)
    {live : Record EntityId} (hlive : heap.record? t.entity = some live) {o : Option Pending}
    (ho : t.pending? heap = .ok o) (wire : String) :
    Pending.said? o wire = live.noted? heap.keyOf t.original wire := by
  obtain ⟨r, changes, hdiffers, rfl⟩ := pending?_eq_ok.1 ho
  obtain rfl : r = live :=
    Option.some.inj ((Heap.record?_of_read hdiffers.read).symm.trans hlive)
  rw [Pending.said?_pendingOf]
  exact Record.get?_diff (hheap _ _ hlive).1 h.wellFormed (h.schema_eq hlive) hdiffers.diff
    (fun _ _ => Heap.keyOf_of_reference) wire

namespace Heap

variable {heap heap' : Heap} {id : EntityId} {e : Edit} {live next : Record EntityId}

/-- An edit puts a record in place of the one that was read: the edited one if it fits. -/
theorem exists_write_of_edit (h : heap.edit id e = .ok heap') :
    ∃ live next, heap.read id = .ok live ∧ heap' = heap.write id next ∧
      (next = live ∨ e.fits heap live.schema = true ∧ next = e.apply live) := by
  obtain ⟨live, hread, h⟩ := Result.map_eq_ok.1 h
  split at h
  · exact ⟨live, _, hread, h.symm, .inr ⟨‹_›, rfl⟩⟩
  · exact ⟨live, live, hread, by rw [← h, write_of_read hread], .inl rfl⟩

/-- An edit that fits is made. -/
theorem record?_of_edit (h : heap.edit id e = .ok heap') (hread : heap.read id = .ok live)
    (hfits : e.fits heap live.schema = true) : heap'.record? id = some (e.apply live) := by
  obtain ⟨r, hr, h⟩ := Result.map_eq_ok.1 h
  obtain rfl : r = live := Except.ok.inj (hr.symm.trans hread)
  rw [if_pos hfits] at h
  rw [← h, record?_write _ _ _ _ (lt_size_of_record? (record?_of_read hread)), if_pos rfl]

/-- Who is not edited has the same to send, if it refers to the same keys. -/
theorem pending?_write {t : Tracked} (hheap : heap.WellFormed) (hfits : t.Fits heap)
    (hread : heap.read id = .ok live) (hschema : next.schema = live.schema) (hne : t.entity ≠ id)
    (hkey : next.key = live.key ∨ ∀ wire, ¬ t.LeadsTo heap wire id) :
    t.pending? (heap.write id next) = t.pending? heap := by
  have hsame : (heap.write id next).read t.entity = heap.read t.entity := by
    rw [read_write hread, if_neg hne]
  have href : ∀ i, (∃ wire, t.LeadsTo heap wire i) →
      (heap.write id next).reference i = heap.reference i := by
    rintro i ⟨wire, hleads⟩
    refine reference_write hread fun hi => ?_
    rcases hkey with hkey | hnone
    · exact hkey
    · exact absurd (hi ▸ hleads) (hnone wire)
  refine Tracked.pending?_congr (schema?_write hread hschema _) (diff_congr
    (schema?_write hread hschema _) hsame (fun r hr i hi => ?_) fun i hi => ?_)
  · have hrecord := record?_of_read hr
    obtain ⟨wire, hwire⟩ := (hheap _ _ hrecord).1.exists_value?_of_mem hi
    exact href i ⟨wire, .inl ⟨r, hrecord, hwire⟩⟩
  · obtain ⟨wire, hwire⟩ := hfits.wellFormed.exists_value?_of_mem hi
    exact href i ⟨wire, .inr hwire⟩

theorem keyOf_write (hread : heap.read id = .ok live) {other : EntityId}
    (hkey : other = id → next.key = live.key) :
    (heap.write id next).keyOf other = heap.keyOf other := by
  rw [keyOf, keyOf, record?_write _ _ _ _ (lt_size_of_record? (record?_of_read hread))]
  split
  · rename_i h
    rw [h, record?_of_read hread]
    exact congrArg Key.toJson (hkey h)
  · rfl

/-- What is said of a member that was not edited is the same, if it refers to the same key. -/
theorem said?_write {t : Tracked} (hheap : heap.WellFormed)
    (hheap' : (heap.write id next).WellFormed) (hfits : t.Fits heap)
    (hfits' : t.Fits (heap.write id next)) (hread : heap.read id = .ok live)
    (hschema : next.schema = live.schema) {o o' : Option Pending} (ho : t.pending? heap = .ok o)
    (ho' : t.pending? (heap.write id next) = .ok o') {wire : String}
    (hown : t.entity = id → (wire = live.schema.keyWire → next.key = live.key) ∧
      next.value? wire = live.value? wire)
    (hkey : next.key = live.key ∨ ¬ t.LeadsTo heap wire id) :
    Pending.said? o' wire = Pending.said? o wire := by
  obtain ⟨r, hr, -⟩ := hfits.exists_record
  have hkeyOf : ∀ i, t.LeadsTo heap wire i → (heap.write id next).keyOf i = heap.keyOf i := by
    intro i hleads
    refine keyOf_write hread fun hi => ?_
    rcases hkey with hkey | hnone
    · exact hkey
    · exact absurd (hi ▸ hleads) hnone
  have hnow : ∀ i, r.value? wire = some (.one (some i)) →
      (heap.write id next).keyOf i = heap.keyOf i := fun i hi => hkeyOf i (.inl ⟨r, hr, hi⟩)
  have hbefore : ∀ i, t.original.value? wire = some (.one (some i)) →
      (heap.write id next).keyOf i = heap.keyOf i := fun i hi => hkeyOf i (.inr hi)
  have hr' := record?_write heap id t.entity next (lt_size_of_record? (record?_of_read hread))
  rw [hfits.said? hheap hr ho]
  by_cases hentity : t.entity = id
  · obtain rfl : live = r := Option.some.inj ((record?_of_read hread).symm.trans (hentity ▸ hr))
    rw [if_pos hentity] at hr'
    rw [hfits'.said? hheap' hr' ho']
    exact Record.noted?_congr hschema (fun hwire => ⟨(hown hentity).1 hwire, rfl⟩) (hown hentity).2
      rfl hnow hbefore
  · rw [if_neg hentity, hr] at hr'
    rw [hfits'.said? hheap' hr' ho']
    exact Record.noted?_congr rfl (fun _ => ⟨rfl, rfl⟩) rfl rfl hnow hbefore

/-- When a relation to many was edited all have the same to send. -/
theorem pending?_setMany {t : Tracked} (hheap : heap.WellFormed) (hfits : t.Fits heap)
    (hread : heap.read id = .ok live) {name : String} {related : List EntityId}
    (hmany : ∀ v, live.value? name = some v → ∃ old, v = .many old) :
    t.pending? (heap.write id (live.setValue name (.many related))) = t.pending? heap := by
  by_cases hentity : t.entity = id
  · subst hentity
    have href : (heap.write t.entity (live.setValue name (.many related))).reference =
        heap.reference := funext fun i => reference_write hread fun _ => rfl
    have htype : (live.setValue name (.many related)).schema = live.schema := rfl
    have hschema := schema?_write hread htype t.entity
    refine Tracked.pending?_congr hschema ?_
    rw [diff, diff, snapshotOf, snapshotOf, hschema, read_write hread, if_pos rfl, hread, href]
    have hlive := (hheap _ _ (record?_of_read hread)).1
    exact congrArg _ (funext fun prior => Record.diff_setMany hlive hmany)
  · exact pending?_write hheap hfits hread rfl hentity (.inl rfl)

end Heap

/-- What is pending of a list, with the entry of one entity in its place. -/
theorem Tracked.waiting_append_cons {heap : Heap} {front back : List Tracked} {t : Tracked}
    {ps : List Pending} (h : waiting heap (front ++ t :: back) = .ok ps) :
    ∃ before o after, waiting heap front = .ok before ∧ t.pending? heap = .ok o ∧
      waiting heap back = .ok after ∧ ps = before ++ o.toList ++ after := by
  obtain ⟨os, hos, rfl⟩ := Result.map_eq_ok.1 h
  rw [List.mapM_append] at hos
  obtain ⟨as, has, hos⟩ := Result.bind_eq_ok.1 hos
  obtain ⟨bs, hbs, hos⟩ := Result.bind_eq_ok.1 hos
  rw [List.mapM_cons] at hbs
  obtain ⟨o, ho, hbs⟩ := Result.bind_eq_ok.1 hbs
  obtain ⟨cs, hcs, hbs⟩ := Result.bind_eq_ok.1 hbs
  cases hos
  cases hbs
  refine ⟨as.reduceOption, o, cs.reduceOption, Result.map_eq_ok.2 ⟨as, has, rfl⟩, ho,
    Result.map_eq_ok.2 ⟨cs, hcs, rfl⟩, ?_⟩
  cases o <;> simp [List.reduceOption_append]

/-! ## In every session -/

namespace Session

variable {s : Session} {id : EntityId} {e : Edit} {heap' : Heap}

/-- What an edit of one entity can change of what is pending: `heap'` is the heap after it. -/
structure Local (s : Session) (id : EntityId) (e : Edit) (heap' : Heap) : Prop where
  /-- Entries are for the rows that they were for. -/
  rows : ∀ t ∈ s.tracker.records, ∀ heap, heap = s.heap ∨ heap = heap' →
    ∀ p, t.pending? heap = .ok (some p) →
      p.collection = t.original.schema.collection ∧ p.identity = t.original.key.identity
  /-- The entries of others stay; when the key is edited, those that do not lead to the entity. -/
  others : ∀ t ∈ s.tracker.records, t.entity ≠ id →
    (e.isOfKey = true → ∀ wire, ¬ t.LeadsTo s.heap wire id) → t.pending? heap' = t.pending? s.heap
  /-- Of its own entry nothing but the edited member changes, and of all entries only those
  relations that lead to the entity, when the key is edited. -/
  members : ∀ t ∈ s.tracker.records, ∀ o o',
    t.pending? s.heap = .ok o → t.pending? heap' = .ok o' → ∀ wire,
    (t.entity = id → wire ≠ e.wire t.original.schema) →
    (e.isOfKey = true → ¬ t.LeadsTo s.heap wire id) → Pending.said? o' wire = Pending.said? o wire
  /-- What is pending is the same when a relation to many was edited. -/
  many : e.isOfMany = true → s.tracker.pending heap' = s.tracker.pending s.heap
  /-- Unless the key is edited, what is pending before and after differs at most in the entry of
  the entity, and this stands at the same place, if it is there. -/
  entries : e.isOfKey = false → ∀ ps ps', s.tracker.pending s.heap = .ok ps →
    s.tracker.pending heap' = .ok ps' → ∃ front own own' back,
      ps = front ++ own.toList ++ back ∧ ps' = front ++ own'.toList ++ back ∧
      (∀ t ∈ s.tracker.records, t.entity = id →
        t.pending? s.heap = .ok own ∧ t.pending? heap' = .ok own') ∧
      (id ∉ s.tracker.entities → own = none ∧ own' = none)
  /-- Unless something is poisoned, what is pending can be told before and after. -/
  told : s.heap.IsSound →
    (∃ ps, s.tracker.pending s.heap = .ok ps) ∧ ∃ ps', s.tracker.pending heap' = .ok ps'

/-- An entry is for the row of the key that the snapshot holds. -/
theorem Inv.row_of_pending? (inv : s.Inv) {t : Tracked} (ht : t ∈ s.tracker.records) {p : Pending}
    (hp : t.pending? s.heap = .ok (some p)) :
    p.collection = t.original.schema.collection ∧ p.identity = t.original.key.identity := by
  obtain ⟨live, changes, -, hsome⟩ := Tracked.pending?_eq_ok.1 hp
  obtain ⟨hcollection, hidentity, -⟩ := Tracked.pendingOf_eq_some hsome.symm
  exact ⟨hcollection.trans (inv.faithful t ht).fits.collection, hidentity⟩

/-- If others have the same to send, what is pending differs at one place at most. -/
theorem Inv.entries_of_others (inv : s.Inv)
    (hothers : ∀ t ∈ s.tracker.records, t.entity ≠ id → t.pending? heap' = t.pending? s.heap)
    {ps ps' : List Pending} (hps : s.tracker.pending s.heap = .ok ps)
    (hps' : s.tracker.pending heap' = .ok ps') :
    ∃ front own own' back, ps = front ++ own.toList ++ back ∧ ps' = front ++ own'.toList ++ back ∧
      (∀ t ∈ s.tracker.records, t.entity = id →
        t.pending? s.heap = .ok own ∧ t.pending? heap' = .ok own') ∧
      (id ∉ s.tracker.entities → own = none ∧ own' = none) := by
  by_cases hid : id ∈ s.tracker.entities
  · obtain ⟨t, ht, rfl⟩ := List.mem_map.1 hid
    have hunique : ∀ t' ∈ s.tracker.records, t'.entity = t.entity → t' = t :=
      fun t' ht' h => List.inj_on_of_nodup_map inv.nodup ht' ht h
    obtain ⟨front, back, hrecords⟩ := List.append_of_mem ht
    have hnodup := inv.nodup
    rw [UnitOfWork.entities, hrecords, List.map_append, List.map_cons] at hnodup
    rw [Tracked.pending_eq_waiting, hrecords] at hps hps'
    obtain ⟨before, own, after, hfront, ho, hback, rfl⟩ := Tracked.waiting_append_cons hps
    obtain ⟨before', own', after', hfront', ho', hback', rfl⟩ := Tracked.waiting_append_cons hps'
    -- The entity is tracked once, so it is neither before nor after that place.
    have hfrontSame : Tracked.waiting heap' front = Tracked.waiting s.heap front := by
      refine Tracked.waiting_congr fun t' ht' => hothers t' (by simp [hrecords, ht']) fun he => ?_
      exact (List.disjoint_of_nodup_append hnodup) (List.mem_map_of_mem ht')
        (he ▸ List.mem_cons_self)
    have hbackSame : Tracked.waiting heap' back = Tracked.waiting s.heap back := by
      refine Tracked.waiting_congr fun t' ht' => hothers t' (by simp [hrecords, ht']) fun he => ?_
      exact (List.nodup_cons.1 (List.nodup_append.1 hnodup).2.1).1
        (he ▸ List.mem_map_of_mem ht')
    cases hfront.symm.trans (hfrontSame.symm.trans hfront')
    cases hback.symm.trans (hbackSame.symm.trans hback')
    refine ⟨before, own, own', after, rfl, rfl, fun t' ht' h => ?_, fun h => absurd hid h⟩
    obtain rfl := hunique t' ht' h
    exact ⟨ho, ho'⟩
  · have hsame : s.tracker.pending heap' = s.tracker.pending s.heap :=
      Tracked.waiting_congr fun t ht => hothers t ht fun he => hid (he ▸ List.mem_map_of_mem ht)
    cases hps.symm.trans (hsame.symm.trans hps')
    refine ⟨ps, none, none, [], by simp, by simp, fun t ht he => ?_, fun _ => ⟨rfl, rfl⟩⟩
    exact absurd (he ▸ List.mem_map_of_mem ht) hid

/-- **Edits are local**, whatever is edited in whatever session. -/
theorem Reachable.edit_local (h : s.Reachable) (hedit : s.heap.edit id e = .ok heap') :
    s.Local id e heap' := by
  have inv := h.inv
  have inv' : Inv { s with heap := heap' } := inv.step (.change (.edit hedit))
  obtain ⟨live, next, hread, rfl, hnext⟩ := Heap.exists_write_of_edit hedit
  have hlive := inv.heap _ _ (Heap.record?_of_read hread)
  have hschema : next.schema = live.schema := by
    rcases hnext with rfl | ⟨-, rfl⟩
    · rfl
    · exact Edit.schema_apply live e
  have hkey : e.isOfKey = false → next.key = live.key := by
    intro hother
    rcases hnext with rfl | ⟨-, rfl⟩
    · rfl
    · exact Edit.key_apply live hother
  have hothers : ∀ t ∈ s.tracker.records, t.entity ≠ id →
      (e.isOfKey = true → ∀ wire, ¬ t.LeadsTo s.heap wire id) →
      t.pending? (s.heap.write id next) = t.pending? s.heap := by
    intro t ht hne hleads
    refine Heap.pending?_write inv.heap (inv.faithful t ht).fits hread hschema hne ?_
    cases hof : e.isOfKey with
    | true => exact .inr (hleads hof)
    | false => exact .inl (hkey hof)
  constructor
  case rows =>
    intro t ht heap hheap p hp
    rcases hheap with rfl | rfl
    · exact inv.row_of_pending? ht hp
    · exact inv'.row_of_pending? ht hp
  case others => exact hothers
  case members =>
    intro t ht o o' ho ho' wire hwire hleads
    have hfits := (inv.faithful t ht).fits
    refine Heap.said?_write inv.heap inv'.heap hfits (inv'.faithful t ht).fits hread hschema ho ho'
      (fun hentity => ?_) ?_
    · have hold : t.original.schema = live.schema :=
        hfits.schema_eq (hentity ▸ Heap.record?_of_read hread)
      have hne := hold ▸ hwire hentity
      refine ⟨fun hw => ?_, ?_⟩
      · refine hkey ?_
        cases e <;> first | rfl | exact absurd hw hne
      · rcases hnext with rfl | ⟨-, rfl⟩
        · rfl
        · exact Edit.value?_apply hne
    · cases hof : e.isOfKey with
      | true => exact .inr (hleads hof)
      | false => exact .inl (hkey hof)
  case many =>
    intro hmany
    refine Tracked.waiting_congr fun t ht => ?_
    rcases hnext with rfl | ⟨hfits, rfl⟩
    · rw [Heap.write_of_read hread]
    · obtain ⟨name, related, happly, hold⟩ := Edit.exists_many_of_fits hlive.1 hfits hmany
      rw [happly]
      exact Heap.pending?_setMany inv.heap (inv.faithful t ht).fits hread hold
  case entries =>
    intro hother ps ps' hps hps'
    exact inv.entries_of_others (fun t ht hne => hothers t ht hne (by simp [hother])) hps hps'
  case told =>
    intro hsound
    refine ⟨inv.exists_pending hsound, inv'.exists_pending fun i => ?_⟩
    exact Heap.isPoisoned_write _ _ _ _ (hsound i)

/-- The first tag led to the second and leads to the third. When the second gets the key of the
third, its entry is still for its row, and in the entry of the first the relation is gone. -/
theorem edit_local_renamed :
    let s := Chronicle.pointed.session
    let heap' := Chronicle.renamed.session.heap
    s.heap.edit 1 (.key (.text "c")) = .ok heap' ∧ s.Local 1 (.key (.text "c")) heap' ∧
      s.tracker.pending s.heap = .ok [⟨"tag", "a", ⟨[("of", .string "c")]⟩⟩] ∧
      s.tracker.pending heap' = .ok [⟨"tag", "b", ⟨[("id", .string "c")]⟩⟩] :=
  ⟨rfl, Reachable.edit_local Chronicle.reachable_pointed.session rfl, rfl, rfl⟩

end Session

end ItemClient
