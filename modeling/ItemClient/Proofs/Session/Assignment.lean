import ItemClient.Proofs.Session.Address
import ItemClient.Proofs.Session.Locality

/-!
# Members that were not loaded

An answer may leave members of an entity out, or give no more than its key. Nobody keeps account
of that: the entity is filled with the defaults of the types, and this is also what its snapshot
holds. So a value that is assigned to such a member is sent unless it is the default
(`Edit.isDefault`).

**Invariant** (`Chronicle.IsBlankAt`). The snapshot holds the default of a member that was left out.
A step can change that only by hearing that a value of the member was acknowledged, or by tracking
the entity anew (`Chronicle.Later.isBlankAt`).

Main result: `Chronicle.Reachable.read_assigns`. `not_sent_blank` is an assignment that is lost.
-/

namespace ItemClient

/-! ## Declared members -/

section Members

variable {s : Schema} {m : Member}

theorem Schema.wire_ne_keyWire (hwires : s.wires.Nodup) (hm : m ∈ s.members) :
    m.wire ≠ s.keyWire :=
  fun he => (List.nodup_cons.1 hwires).1 (he ▸ List.mem_map_of_mem hm)

theorem Edit.typeOf?_wire (hwires : s.wires.Nodup) (hm : m ∈ s.members) :
    typeOf? s m.wire = some m.type := by
  rw [typeOf?, Schema.member?_of_mem hwires hm, Option.map_some]

end Members

/-! ## Defaults -/

namespace Record

variable {ρ : Type} {key : ρ → Json} {live prior r : Record ρ} {wire : String}

/-- What a member holds, unless that is the default of its type. -/
def assigned? (key : ρ → Json) (r : Record ρ) (wire : String) : Option Json :=
  if wire = r.schema.keyWire then
    if r.key = .default r.schema.keyKind then none else some r.key.toJson
  else
    match r.value? wire, Edit.typeOf? r.schema wire with
    | some (.scalar now), some (.scalar kind) =>
        if now.same (.default kind) then none else some now.toJson
    | some (.one now), _ => now.map key
    | _, _ => none

/-- A member holds the default of its type. -/
def IsBlank (r : Record ρ) (wire : String) : Prop := ∀ key, r.assigned? key wire = none

/-- Whether a member holds the default does not depend on the keys of related records. -/
theorem isBlank_of_assigned? (h : r.assigned? key wire = none) : r.IsBlank wire := by
  intro key'
  unfold assigned? at h ⊢
  split
  · rwa [if_pos ‹_›] at h
  · rw [if_neg ‹_›] at h
    split <;> simp_all

/-- It depends on the member alone. -/
theorem assigned?_congr (hschema : live.schema = r.schema) (hkey : live.key = r.key)
    (hvalue : live.value? wire = r.value? wire) :
    live.assigned? key wire = r.assigned? key wire := by
  rw [assigned?, assigned?, hschema, hkey, hvalue]

/-- **Against a default everything is noted that is none.** -/
theorem noted?_of_isBlank (hlive : live.WellFormed) (hprior : prior.WellFormed)
    (hschema : prior.schema = live.schema) (hblank : prior.IsBlank wire) :
    live.noted? key prior wire = live.assigned? key wire := by
  have hprior' := hblank key
  unfold noted? assigned? at *
  rw [hschema] at hprior'
  split
  · rename_i hwire
    rw [if_pos hwire] at hprior'
    have hdefault : prior.key = .default live.schema.keyKind := by
      by_contra hne
      rw [if_neg hne] at hprior'
      cases hprior'
    rw [hdefault]
  rename_i hwire
  rw [if_neg hwire] at hprior'
  cases hv : live.value? wire with
  | none => rfl
  | some v =>
    obtain ⟨m, hm, rfl⟩ := hlive.value?_eq_some_iff.1 hv
    obtain ⟨w, -, hmw, hvHolds, hwHolds⟩ :=
      exists_zip_zip hlive.values (hschema ▸ hprior.values) hm
    have hw : prior.value? m.wire = some w :=
      hprior.value?_eq_some_iff.2 ⟨m, hschema ▸ hmw, rfl⟩
    have htype := Edit.typeOf?_wire hlive.wires (List.of_mem_zip hm).1
    rw [hw, htype] at hprior'
    rw [hw, htype]
    cases hmType : m.type with
    | many target => cases v <;> cases w <;> simp_all [MemberType.Holds]
    | one target =>
      cases v <;> cases w <;> simp_all [MemberType.Holds]
      rename_i now before
      cases now <;> cases before <;> simp_all [ChangeSet.sameReference]
    | scalar kind =>
      cases v <;> cases w <;> simp_all [MemberType.Holds]
      rename_i now before
      rw [Scalar.same_congr hprior']

end Record

/-! ## Members that were left out -/

/-- A JSON value leaves out the key of a record, or another member. -/
def Schema.LeavesOut (s : Schema) (j : Json) (wire : String) : Prop :=
  wire = s.keyWire ∧ s.keyGiven? j = none ∨ (∃ m ∈ s.members, m.wire = wire) ∧ s.given? j wire = none

/-- **What was left out is the default.** -/
theorem Tree.Decodes.isBlank {catalog : Catalog} {s : Schema} {j : Json} {t : Tree} {ρ : Type}
    {R : Tree → ρ → Prop} {r : Record ρ} {wire : String} (h : Decodes catalog s j t)
    (hr : r.WellFormed) (hschema : r.schema = t.record.schema) (hkey : r.key = t.record.key)
    (hvalues : List.Forall₂ (Value.Rel R) t.record.values r.values) (hout : s.LeavesOut j wire) :
    r.IsBlank wire := by
  intro key
  obtain rfl : s = r.schema := h.schema.symm.trans hschema.symm
  unfold Record.assigned?
  rcases hout with ⟨rfl, hnone⟩ | ⟨⟨m, hm, rfl⟩, hnone⟩
  · have hdefault := h.key
    rw [Schema.keyOf?, hnone, ← hkey] at hdefault
    rw [if_pos rfl, if_pos (Option.some.inj hdefault).symm]
  rw [if_neg (Schema.wire_ne_keyWire hr.wires hm), Edit.typeOf?_wire hr.wires hm]
  cases hw : r.value? m.wire with
  | none => rfl
  | some w =>
    obtain ⟨m', hm', hname⟩ := hr.value?_eq_some_iff.1 hw
    obtain rfl : m' = m := List.inj_on_of_nodup_map (List.nodup_cons.1 hr.wires).2
      (List.of_mem_zip hm').1 hm hname
    obtain ⟨v, hread, hrel⟩ := List.forall₂_zip (h.values.comp hvalues) hm'
    rw [hnone] at hread
    obtain rfl : .default m'.type = v := Option.some.inj hread
    -- A member that was given nothing holds the default of its type.
    cases htype : m'.type with
    | scalar kind =>
      rw [htype] at hrel
      cases hrel
      exact if_pos (Scalar.same_self (Scalar.isOrdinary_default kind))
    | one target =>
      rw [htype] at hrel
      cases hrel
      rfl
    | many target =>
      rw [htype] at hrel
      cases hrel
      rfl

/-! ## Assignments -/

namespace Edit

/-- What an edit assigns, as it stands in a payload; relations to many are never sent. -/
def value? (heap : Heap) : Edit → Option Json
  | key k => some k.toJson
  | scalar _ value => some value.toJson
  | relate _ target => some (heap.keyAt target)
  | attach _ _ | detach _ _ => none

/-- Whether an edit assigns the default of the type. -/
def isDefault (s : Schema) : Edit → Bool
  | key k => k = .default s.keyKind
  | scalar wire value =>
      match typeOf? s wire with
      | some (.scalar kind) => value.same (.default kind)
      | _ => false
  | relate _ target => target.isNone
  | attach _ _ | detach _ _ => false

variable {e : Edit} {r : Record EntityId}

/-- **An edited member holds what was assigned.** -/
theorem assigned?_apply {heap heap' : Heap} (hr : r.WellFormed)
    (hfits : e.fits heap r.schema = true) :
    (e.apply r).assigned? heap'.keyOf (e.wire r.schema) =
      if e.isDefault r.schema then none else e.value? heap' := by
  have hput : ∀ {name type} (v : Value EntityId), typeOf? r.schema name = some type →
      name ≠ r.schema.keyWire ∧ (r.setValue name v).value? name = some v := by
    intro name type v htype
    obtain ⟨m, hm, rfl⟩ := Option.map_eq_some_iff.1 htype
    have hmem : m ∈ r.schema.members := List.mem_of_find?_eq_some hm
    obtain rfl : m.wire = name := by simpa using List.find?_some hm
    obtain ⟨w, hw, -⟩ := hr.values.exists_right hmem
    refine ⟨Schema.wire_ne_keyWire hr.wires hmem, ?_⟩
    rw [Record.value?_setValue, hr.value?_eq_some_iff.2 ⟨m, hw, rfl⟩, Option.map_some, if_pos rfl]
  unfold Record.assigned?
  rw [schema_apply]
  cases e with
  | key k =>
    rw [wire, if_pos rfl]
    by_cases hk : k = .default r.schema.keyKind <;> simp [apply, isDefault, value?, hk]
  | scalar name x =>
    simp only [fits] at hfits
    split at hfits
    · rename_i kind htype
      obtain ⟨hname, hvalue⟩ := hput (.scalar x) htype
      rw [wire, if_neg hname, apply, hvalue, htype, isDefault, htype]
      rfl
    · cases hfits
  | relate name target =>
    simp only [fits] at hfits
    split at hfits
    · rename_i model htype
      obtain ⟨hname, hvalue⟩ := hput (.one target) htype
      rw [wire, if_neg hname, apply, hvalue]
      cases target <;> rfl
    · cases hfits
  | attach name target =>
    simp only [fits] at hfits
    split at hfits
    · rename_i model htype
      obtain ⟨hname, hvalue⟩ := hput (.many (manyOf r name ++ [target])) htype
      rw [wire, if_neg hname, apply, hvalue]
      rfl
    · cases hfits
  | detach name index =>
    simp only [fits] at hfits
    split at hfits
    · rename_i model htype
      obtain ⟨hname, hvalue⟩ := hput (.many ((manyOf r name).eraseIdx index)) htype
      rw [wire, if_neg hname, apply, hvalue]
      rfl
    · cases hfits

end Edit

/-! ## Snapshots that hold a default -/

/-- No value of a member was acknowledged for an entity. -/
def Unheard (id : EntityId) (wire : String) (heard : List (EntityId × ChangeSet)) : Prop :=
  ∀ changes, (id, changes) ∈ heard → changes.get? wire = none

theorem unheard_append {id : EntityId} {wire : String} {heard more : List (EntityId × ChangeSet)} :
    Unheard id wire (heard ++ more) ↔ Unheard id wire heard ∧ Unheard id wire more := by
  simp only [Unheard, List.mem_append, or_imp, forall_and]

/-- When nothing is noted of a member that was the default, it still is. -/
theorem Tracked.Differs.isBlank {heap : Heap} {t : Tracked} {live : Record EntityId}
    {changes : ChangeSet} {wire : String} (h : t.Differs heap live changes)
    (hheap : heap.WellFormed) (hfits : t.Fits heap) (hblank : t.original.IsBlank wire)
    (hnone : changes.get? wire = none) : live.IsBlank wire := by
  have hlive := (hheap _ _ (Heap.record?_of_read h.read)).1
  have hschema := hfits.schema_eq (Heap.record?_of_read h.read)
  have hsaid := Record.get?_diff hlive hfits.wellFormed hschema h.diff
    (fun _ _ => Heap.keyOf_of_reference) wire
  rw [hnone, Record.noted?_of_isBlank hlive hfits.wellFormed hschema hblank] at hsaid
  exact Record.isBlank_of_assigned? hsaid.symm

/-- **A sweep keeps defaults** where it hears nothing of the member. -/
theorem Sweep.isBlank_run {σ : Type} {g : Gateway σ} {ts : List Tracked} {world : World σ}
    {id : EntityId} {wire : String} (hg : g.Orderly) (hheap : world.heap.WellFormed)
    (hfits : ∀ t ∈ ts, t.Fits world.heap)
    (hts : ∀ t ∈ ts, t.entity = id → t.original.IsBlank wire)
    (hunheard : Unheard id wire (acknowledged g ts world)) :
    ∀ t ∈ (run g ts world).records, t.entity = id → t.original.IsBlank wire := by
  induction ts, world using run.induct g with
  | case1 world => simp [run]
  | case2 t ts world e h =>
    rw [run_of_failed h]
    exact hts
  | case3 t ts world h ih =>
    rw [run_of_clean h]
    rw [acknowledged_of_clean h] at hunheard
    intro t' ht'
    rcases List.mem_cons.1 ht' with rfl | ht'
    · exact hts _ List.mem_cons_self
    · exact ih hheap (fun t ht => hfits t (List.mem_cons_of_mem _ ht))
        (fun t ht => hts t (List.mem_cons_of_mem _ ht)) hunheard t' ht'
  | case4 t ts world p candidate h a world' hp ih =>
    rw [run_of_acknowledged h hp]
    rw [acknowledged_of_acknowledged h hp] at hunheard
    have hkeeps := (changes_patch hg hp).keeps
    intro t' ht' hid
    rcases List.mem_cons.1 ht' with rfl | ht'
    · -- The snapshot is taken anew, and of the member nothing was sent.
      exact (Tracked.prepare_eq_some h).1.isBlank hheap (hfits t List.mem_cons_self)
        (hts t List.mem_cons_self hid) (hunheard _ (hid ▸ List.mem_cons_self))
    · exact ih (hkeeps.wellFormed hheap)
        (fun t ht => (hfits t (List.mem_cons_of_mem _ ht)).mono hkeeps)
        (fun t ht => hts t (List.mem_cons_of_mem _ ht))
        (fun changes hmem => hunheard changes (List.mem_cons_of_mem _ hmem)) t' ht' hid
  | case5 t ts world p candidate h e world' hp =>
    rw [run_of_refused h hp]
    exact hts

/-- What is tracked after a registration was tracked before, with the same snapshot, or is new and
has a snapshot of how it stands. -/
theorem Session.mem_records_registerAll {s : Session} {roots : List EntityId} {t : Tracked}
    (ht : t ∈ (s.registerAll roots).tracker.records) :
    t ∈ s.tracker.records ∨
      t.entity ∉ s.tracker.entities ∧ s.heap.read t.entity = .ok t.original := by
  unfold Session.registerAll at ht
  cases hresult : s.tracker.registerAll s.heap roots with
  | mk result rest =>
  obtain ⟨tracker, notices⟩ := rest
  rw [hresult] at ht
  cases result with
  | error e =>
    obtain rfl := UnitOfWork.registerAll_eq_error hresult
    exact .inl ht
  | ok n =>
    obtain ⟨found, hfound, -, rfl⟩ := UnitOfWork.registerAll_eq_ok hresult
    refine (List.mem_append.1 ht).imp_right fun ht => ?_
    obtain ⟨d, hd, hentity, horiginal, -⟩ := Discovery.mem_track ht
    rw [hentity, horiginal]
    exact ⟨(hfound.mem_iff.1 (List.mem_map_of_mem hd)).2, (hfound.current d hd).original⟩

namespace Chronicle

variable {c c' : Chronicle} {id : EntityId} {wire : String}

/-- The snapshot of an entity holds the default of a member. -/
def IsBlankAt (c : Chronicle) (id : EntityId) (wire : String) : Prop :=
  ∀ t ∈ c.session.tracker.records, t.entity = id → t.original.IsBlank wire

/-- **A step keeps a default** of which it hears nothing. -/
theorem Step.isBlankAt (h : Step c c') (hc : c.Reachable)
    (hold : id ∈ c'.session.tracker.entities → id ∈ c.session.tracker.entities) :
    ∃ more, c'.heard = c.heard ++ more ∧
      (Unheard id wire more → c.IsBlankAt id wire → c'.IsBlankAt id wire) := by
  have inv := hc.session.inv
  cases h with
  | change hchange => exact ⟨[], (List.append_nil _).symm, fun _ hblank => hblank⟩
  | register roots =>
    refine ⟨[], (List.append_nil _).symm, fun _ hblank t ht hid => ?_⟩
    rcases Session.mem_records_registerAll ht with hbefore | ⟨hnew, -⟩
    · exact hblank t hbefore hid
    · exact absurd (hold (hid ▸ List.mem_map_of_mem ht)) (hid ▸ hnew)
  | @commit σ g far hg =>
    refine ⟨_, rfl, fun hunheard hblank => ?_⟩
    unfold IsBlankAt Chronicle.commit Session.commit
    cases hresult : (Sweep.run g c.session.tracker.records (c.session.world far)).result with
    | ok n =>
      rw [UnitOfWork.commit_of_ok hresult]
      intro t ht
      cases ht
    | error e =>
      rw [UnitOfWork.commit_of_error hresult]
      exact Sweep.isBlank_run hg inv.heap (fun t ht => (inv.faithful t ht).fits) hblank hunheard
  | reset =>
    refine ⟨[], (List.append_nil _).symm, fun _ _ t ht => ?_⟩
    cases ht

/-- **Later a default is still there**, if nothing of the member was heard. -/
theorem Later.isBlankAt (h : Later id c c') (hc : c.Reachable) (hblank : c.IsBlankAt id wire) :
    ∃ since, c'.heard = c.heard ++ since ∧ (Unheard id wire since → c'.IsBlankAt id wire) := by
  induction h with
  | refl => exact ⟨[], (List.append_nil _).symm, fun _ => hblank⟩
  | tail hsteps hstep ih =>
    obtain ⟨since, hheard, hkept⟩ := ih
    obtain ⟨more, hheard', hkept'⟩ := hstep.1.isBlankAt (Later.reachable hsteps hc) hstep.2
    refine ⟨since ++ more, by rw [hheard', hheard, List.append_assoc], fun hunheard => ?_⟩
    rw [unheard_append] at hunheard
    exact hkept' hunheard.2 (hkept hunheard.1)

/-! ## What is sent of members -/

/-- What is sent of a member of a tracked entity, as `said` gives it for a record and the keys of
all entities. In each case `heap` is any later heap. -/
structure Sends (c : Chronicle) (t : Tracked) (wire : String)
    (said : (EntityId → Json) → Record EntityId → Option Json) : Prop where
  pending : ∀ heap, c.session.heap.Changes heap → ∀ live, heap.record? t.entity = some live →
    ∀ o, t.pending? heap = .ok o → Pending.said? o wire = said heap.keyOf live
  /-- The same goes for the PATCH at the turn of the entity in a commit. -/
  patched : ∀ heap, c.session.heap.Changes heap → ∀ {σ : Type} (g : Gateway σ) (far : σ),
    g.Orderly → ∀ turn ∈ Sweep.turns g c.session.tracker.records { heap, far },
      turn.tracked = t → ∀ live, turn.world.heap.record? t.entity = some live →
        (∃ o, Sweep.prepare turn.world.heap t = .ok o) →
          Pending.said? ((turn.patch? g).map Patch.pending) wire =
            said turn.world.heap.keyOf live
  /-- The turn comes in each commit that goes through. -/
  reached : ∀ heap, c.session.heap.Changes heap → ∀ {σ : Type} (g : Gateway σ) (far : σ) report,
    (c.session.tracker.commit g { heap, far }).result = .ok report →
      ∃ turn ∈ Sweep.turns g c.session.tracker.records { heap, far }, turn.tracked = t ∧
        ∃ o, Sweep.prepare turn.world.heap t = .ok o
  /-- Unless something is poisoned, what is pending can be told. -/
  told : ∀ heap, c.session.heap.Changes heap → heap.IsSound → ∃ o, t.pending? heap = .ok o

/-- **What is sent is what the comparison with the snapshot notes.** -/
theorem Reachable.sends (h : c.Reachable) {t : Tracked} (ht : t ∈ c.session.tracker.records)
    {said : (EntityId → Json) → Record EntityId → Option Json}
    (hsaid : ∀ (key : EntityId → Json) (live : Record EntityId), live.WellFormed →
      t.original.schema = live.schema → live.noted? key t.original wire = said key live) :
    c.Sends t wire said := by
  have inv := h.session.inv
  have hfits := fun heap (hchanges : c.session.heap.Changes heap) =>
    (inv.faithful t ht).fits.mono hchanges.keeps
  have hpending : ∀ heap, c.session.heap.Changes heap → ∀ live,
      heap.record? t.entity = some live → ∀ o, t.pending? heap = .ok o →
        Pending.said? o wire = said heap.keyOf live := by
    intro heap hchanges live hlive o ho
    have hheap := hchanges.keeps.wellFormed inv.heap
    rw [(hfits heap hchanges).said? hheap hlive ho]
    exact hsaid _ _ (hheap _ _ hlive).1 ((hfits heap hchanges).schema_eq hlive)
  constructor
  case pending => exact hpending
  case patched =>
    rintro heap hchanges σ g far hg turn hturn rfl live hlive ⟨o, ho⟩
    have hlater := hchanges.trans (Sweep.changes_turns hg hturn)
    obtain ⟨live', changes, hdiffers, rfl⟩ := Tracked.prepare_eq_ok.1 ho
    have hsent : (turn.patch? g).map Patch.pending =
        turn.tracked.pendingOf turn.world.heap changes := by
      simp [Sweep.Turn.patch?, Sweep.Turn.pending?, ho, Except.toOption, Function.comp_def]
    rw [hsent]
    exact hpending _ hlater live hlive _
      (Tracked.pending?_eq_ok.2 ⟨live', changes, hdiffers, rfl⟩)
  case reached =>
    intro heap hchanges σ g far report hok
    obtain ⟨n, hrun⟩ := Session.run_ok_of_commit_ok hok
    rw [← Sweep.tracked_turns_of_ok hrun] at ht
    obtain ⟨turn, hturn, rfl⟩ := List.mem_map.1 ht
    exact ⟨turn, hturn, rfl, Sweep.prepared_of_ok hrun turn hturn⟩
  case told =>
    exact fun heap hchanges hsound => (hfits heap hchanges).exists_pending?
      (hchanges.keeps.wellFormed inv.heap) hsound

/-- An assignment to a member is sent, unless it is one of the default of its type. -/
structure SendsAssigned (c : Chronicle) (t : Tracked) (wire : String) : Prop where
  /-- Whatever the member holds at any time is sent, unless it is the default. -/
  sends : c.Sends t wire fun key live => live.assigned? key wire
  /-- An edit of the member is pending at once. -/
  edited : ∀ heap, c.session.heap.Changes heap → ∀ live, heap.read t.entity = .ok live →
    ∀ e heap', e.fits heap live.schema = true → e.wire live.schema = wire →
      heap.edit t.entity e = .ok heap' → ∀ o, t.pending? heap' = .ok o →
        Pending.said? o wire = if e.isDefault live.schema then none else e.value? heap'
  /-- If the member holds what was assigned when the turn of the entity comes in the next commit,
  that is sent. -/
  committed : ∀ heap, c.session.heap.Changes heap → ∀ live, heap.read t.entity = .ok live →
    ∀ e heap', e.fits heap live.schema = true → e.wire live.schema = wire →
      heap.edit t.entity e = .ok heap' → ∀ {σ : Type} (g : Gateway σ) (far : σ), g.Orderly →
        ∀ turn ∈ Sweep.turns g c.session.tracker.records { heap := heap', far },
          turn.tracked = t → ∀ now, turn.world.heap.record? t.entity = some now →
            now.key = (e.apply live).key → now.value? wire = (e.apply live).value? wire →
            (∃ o, Sweep.prepare turn.world.heap t = .ok o) →
              Pending.said? ((turn.patch? g).map Patch.pending) wire =
                if e.isDefault live.schema then none else e.value? turn.world.heap

/-- **Of a member whose default the snapshot holds, assignments are sent**, but for those of the
default. -/
theorem Reachable.sendsAssigned (h : c.Reachable) {t : Tracked}
    (ht : t ∈ c.session.tracker.records) (hblank : t.original.IsBlank wire) :
    c.SendsAssigned t wire := by
  have inv := h.session.inv
  have hfits := (inv.faithful t ht).fits
  have hsends : c.Sends t wire fun key live => live.assigned? key wire :=
    h.sends ht fun key live hlive hschema =>
      Record.noted?_of_isBlank hlive hfits.wellFormed hschema hblank
  have hlive : ∀ {heap live}, c.session.heap.Changes heap → heap.read t.entity = .ok live →
      live.WellFormed := fun hchanges hread =>
    (hchanges.keeps.wellFormed inv.heap _ _ (Heap.record?_of_read hread)).1
  constructor
  case sends => exact hsends
  case edited =>
    rintro heap hchanges live hread e heap' hfitsEdit rfl hmade o ho
    rw [hsends.pending heap' (hchanges.tail (.edit hmade)) _
      (Heap.record?_of_edit hmade hread hfitsEdit) o ho]
    exact Edit.assigned?_apply (hlive hchanges hread) hfitsEdit
  case committed =>
    rintro heap hchanges live hread e heap' hfitsEdit rfl hmade σ g far hg turn hturn hentity now
      hnow hkey hvalue hprepared
    have hrecord := Heap.record?_of_edit hmade hread hfitsEdit
    rw [hsends.patched heap' (hchanges.tail (.edit hmade)) g far hg turn hturn hentity now hnow
      hprepared]
    have hschema : now.schema = (e.apply live).schema := by
      have hkeeps := (Sweep.changes_turns hg hturn).keeps.schema? _ (Heap.lt_size_of_record? hrecord)
      rw [Heap.schema?_eq, Heap.schema?_eq, hnow, hrecord] at hkeeps
      exact Option.some.inj hkeeps
    rw [Record.assigned?_congr hschema hkey hvalue]
    exact Edit.assigned?_apply (hlive hchanges hread) hfitsEdit

/-! ## Reads -/

section Reads

variable {σ : Type} {read : Read} {g : Gateway σ} {far : σ} {entities : List EntityId}

/-- An entity that was read is tracked, and its snapshot holds what it was read with. -/
theorem Reachable.original_of_read (h : c.Reachable) (hg : g.OrderlyReads)
    (hc : read.collection.WellFormed)
    (hok : (read.run c.session.tracker g (c.session.world far)).result = .ok entities) :
    ∃ data, read.answer g (c.session.world far) = .ok data ∧ (c.read read g far).Reachable ∧
      ∀ id s j, (c.read read g far).session.heap.ReadFrom read.collection
          ((read.rows data).zip entities) id s j →
        id ∈ (c.read read g far).session.tracker.entities ∧
          ∀ wire, s.LeavesOut j wire → (c.read read g far).IsBlankAt id wire := by
  obtain ⟨r, data, n, notices, hrequest, hfetched, hlength, hregister⟩ := Read.fetched_of_run hok
  have hread : c.read read g far = registerAll { c with session := { c.session with
      heap := (read.run c.session.tracker g (c.session.world far)).world.heap } } entities :=
    session_read hok
  have hreached : (c.read read g far).Reachable :=
    hread ▸ (h.changes (hfetched.changes hg hc)).tail (.register entities)
  obtain ⟨found, hfound, -, htracker⟩ := UnitOfWork.registerAll_eq_ok hregister
  have hrows := hfetched.stores hg
  refine ⟨data, ?_, hreached, fun id s j hfrom => ?_⟩
  · rw [Read.answer, hrequest]
    exact hfetched.answer
  have hheap : (c.read read g far).session.heap =
      (read.run c.session.tracker g (c.session.world far)).world.heap := by
    rw [hread]
    rfl
  rw [hheap] at hfrom
  obtain ⟨tree, hdecodes, hstores⟩ := hfrom.stores hc hrows
  -- The entity is new, so it was not tracked before.
  have hold : id ∉ c.session.tracker.entities := fun hid =>
    Nat.not_lt.2 hstores.le (h.session.inv.lt_size hid)
  refine ⟨?_, fun wire hout t ht hid => ?_⟩
  · have hreaches := (Heap.reaches_iff_readFrom hc hrows).2 ⟨s, j, hfrom⟩
    rw [List.map_snd_zip hlength.ge] at hreaches
    rw [hread]
    show id ∈ (c.session.tracker.registerAll _ entities).2.1.entities
    rw [hregister, htracker]
    exact hfound.mem_entities_adopt.2 (.inr hreaches)
  · subst hid
    rw [hread] at ht
    rcases Session.mem_records_registerAll ht with hbefore | ⟨-, horiginal⟩
    · exact absurd (List.mem_map_of_mem hbefore) hold
    · obtain ⟨live, hlive, hschema, hkey, hvalues⟩ := hstores.exists_read
      obtain rfl : live = t.original := Except.ok.inj (hlive.symm.trans horiginal)
      have hfits := (hreached.session.inv.faithful t (hread ▸ ht)).fits
      exact hdecodes.isBlank hfits.wellFormed hschema hkey hvalues hout

/-- What becomes of assignments after a read that goes well. -/
structure Assigns (c : Chronicle) (read : Read) (g : Gateway σ) (far : σ)
    (entities : List EntityId) (data : Json) : Prop where
  answer : read.answer g (c.session.world far) = .ok data
  /-- Each entity that was read is tracked. -/
  tracked : ∀ id s j, (c.read read g far).session.heap.ReadFrom read.collection
      ((read.rows data).zip entities) id s j → id ∈ (c.read read g far).session.tracker.entities
  /-- Wherever any later steps lead, an assignment to a member that was left out is sent unless it
  is one of the default, until a value of the member is acknowledged. -/
  leftOut : ∀ id s j, (c.read read g far).session.heap.ReadFrom read.collection
      ((read.rows data).zip entities) id s j →
    ∀ c', Later id (c.read read g far) c' → ∃ since, c'.heard = (c.read read g far).heard ++ since ∧
      ∀ wire, s.LeavesOut j wire → Unheard id wire since →
        ∀ t ∈ c'.session.tracker.records, t.entity = id → c'.SendsAssigned t wire
  /-- Always, and of any member, it is sent unless the snapshot holds the same. -/
  compared : ∀ c', Relation.ReflTransGen Step (c.read read g far) c' →
    ∀ t ∈ c'.session.tracker.records, t.TakenIn (c'.taken t.entity) c'.session.heap ∧
      ∀ wire, c'.Sends t wire fun key live => live.noted? key t.original wire

/-- **What becomes of assignments to members that were not loaded.** -/
theorem Reachable.read_assigns (h : c.Reachable) (hg : g.OrderlyReads)
    (hc : read.collection.WellFormed)
    (hok : (read.run c.session.tracker g (c.session.world far)).result = .ok entities) :
    ∃ data, c.Assigns read g far entities data := by
  obtain ⟨data, hanswer, hreached, hfrom⟩ := h.original_of_read hg hc hok
  refine ⟨data, ?_⟩
  constructor
  case answer => exact hanswer
  case tracked => exact fun id s j hid => (hfrom id s j hid).1
  case leftOut =>
    intro id s j hid c' hlater
    obtain ⟨since, hheard, -⟩ := hlater.hears
    refine ⟨since, hheard, fun wire hout hunheard t ht ht' => ?_⟩
    obtain ⟨since', hheard', hkept⟩ := hlater.isBlankAt hreached ((hfrom id s j hid).2 wire hout)
    obtain rfl : since = since' := List.append_cancel_left (hheard.symm.trans hheard')
    exact (hlater.reachable hreached).sendsAssigned ht (hkept hunheard t ht ht')
  case compared =>
    intro c' hsteps t ht
    have hreachable : c'.Reachable := by
      obtain ⟨c₀, hinitial, hbefore⟩ := hreached
      exact ⟨c₀, hinitial, hbefore.trans hsteps⟩
    exact ⟨hreachable.inv t ht, fun wire => hreachable.sends ht fun _ _ _ _ => rfl⟩

end Reads

/-! A tag of which only the key was read, and that is given a name. -/

theorem leavesOut_name : Session.tag.LeavesOut (.string "b") "name" :=
  .inr ⟨⟨_, List.mem_cons_self, rfl⟩, rfl⟩

/-- Its name is sent when it is assigned, as the name of a tag is empty by default. -/
theorem read_assigns_named :
    ∃ data, blank.Assigns asked nameless () [1] data ∧
      ∃ t ∈ arrived.session.tracker.records, t.entity = 0 ∧ arrived.SendsAssigned t "name" ∧
        t.pending? renamedBoth.session.heap =
          .ok (some ⟨"tag", "b", ⟨[("name", .string "second")]⟩⟩) := by
  obtain ⟨data, hassigns⟩ := Reachable.read_assigns reachable_blank orderlyReads_nameless
    wellFormed_asked run_asked.1
  obtain rfl : data = .object [("name", .string "first"), ("of", .string "b")] :=
    Except.ok.inj (hassigns.answer.symm.trans answer_asked)
  have hlater : Later 0 (blank.read asked nameless ()) arrived := by
    rw [read_asked]
    exact .refl
  obtain ⟨since, hheard, hsends⟩ := hassigns.leftOut 0 _ _ readFrom_stub arrived hlater
  obtain rfl : since = [] := by
    rw [read_asked] at hheard
    exact hheard.symm
  have ht : arrived.session.tracker.records[1] ∈ arrived.session.tracker.records :=
    List.getElem_mem (by decide)
  exact ⟨_, hassigns, _, ht, rfl, hsends "name" leavesOut_name (by simp [Unheard]) _ ht rfl, rfl⟩

/-- **An assignment to a member that was not loaded can be lost**: one of the default. -/
theorem not_sent_blank :
    ¬ ∀ (σ : Type) (g : Gateway σ) (far : σ) (c : Chronicle) (read : Read)
      (entities : List EntityId) (data : Json), c.Reachable → g.OrderlyReads →
      read.collection.WellFormed →
      (read.run c.session.tracker g (c.session.world far)).result = .ok entities →
      read.answer g (c.session.world far) = .ok data →
      ∀ id s j, (c.read read g far).session.heap.ReadFrom read.collection
          ((read.rows data).zip entities) id s j →
        ∀ (e : Edit) (heap : Heap), s.LeavesOut j (e.wire s) → e.isOfMany = false →
          e.fits (c.read read g far).session.heap s = true →
          (c.read read g far).session.heap.edit id e = .ok heap →
          ∀ t ∈ (c.read read g far).session.tracker.records, t.entity = id →
            ∀ o, t.pending? heap = .ok o → Pending.said? o (e.wire s) = e.value? heap := by
  intro hall
  -- With the empty name assigned, nothing is pending of the tag that was read as a bare key.
  obtain ⟨t, ht, hentity, hpending⟩ :
      ∃ t ∈ (blank.read asked nameless ()).session.tracker.records,
        t.entity = 0 ∧ t.pending? arrived.session.heap = .ok none := by
    have htwo : 1 < arrived.session.tracker.records.length := by decide
    rw [read_asked]
    exact ⟨_, List.getElem_mem htwo, rfl, rfl⟩
  have hfits : Edit.fits (blank.read asked nameless ()).session.heap Session.tag
      (.scalar "name" (.text "")) = true := rfl
  have hedit : (blank.read asked nameless ()).session.heap.edit 0 (.scalar "name" (.text "")) =
      .ok arrived.session.heap := by
    rw [read_asked]
    rfl
  have hsaid := hall Unit nameless () blank asked [1] _ reachable_blank orderlyReads_nameless
    wellFormed_asked run_asked.1 answer_asked 0 _ _ readFrom_stub (.scalar "name" (.text ""))
    arrived.session.heap leavesOut_name rfl hfits hedit t ht hentity none hpending
  cases hsaid

end Chronicle

end ItemClient
