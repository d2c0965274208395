import ItemClient.Proofs.Session.Locality

/-!
# What was not edited rests

A member that holds what it held when the snapshot was taken is not sent, whatever became of the
entity besides, with one exception: a scalar with a NaN differs from itself, so it is sent as if it
had been edited, at each commit anew (`Record.unsettled?`, `Record.noted?_of_kept`). Entities
without NaNs are clean as long as nobody edits them, and what was acknowledged of them is not sent
again when a commit that broke off is repeated.

Main result: `Chronicle.Reachable.rests`.
-/

namespace ItemClient

/-! ## Comparison with itself -/

theorem ChangeSet.isEmpty_iff {changes : ChangeSet} :
    changes.isEmpty = true ↔ ∀ wire, changes.get? wire = none := by
  refine ⟨get?_of_isEmpty, fun hnone => ?_⟩
  obtain ⟨fields⟩ := changes
  cases fields with
  | nil => rfl
  | cons entry rest =>
    have hhead := hnone entry.1
    simp [get?, Members.get?] at hhead

namespace Record

variable {ρ : Type} {reference : ρ → Result Json} {key : ρ → Json} {live prior r : Record ρ}
  {changes : ChangeSet} {wire : String}

/-- What a member is sent with though it was not edited: a scalar with a NaN differs from itself. -/
def unsettled? (r : Record ρ) (wire : String) : Option Json :=
  match r.value? wire with
  | some (.scalar x) => if x.isOrdinary then none else some x.toJson
  | _ => none

/-- Without NaNs there is nothing of the kind. -/
theorem WellFormed.isOrdinary_iff (h : r.WellFormed) :
    r.IsOrdinary ↔ ∀ wire, r.unsettled? wire = none := by
  constructor
  · intro hordinary wire
    unfold unsettled?
    split
    · rename_i x hx
      rw [if_pos (hordinary x (mem_values_of_value? hx))]
    · rfl
  · intro hnone x hx
    obtain ⟨wire, hwire⟩ := h.exists_value?_of_mem hx
    have hsettled := hnone wire
    simp only [unsettled?, hwire] at hsettled
    by_contra hnan
    rw [if_neg hnan] at hsettled
    cases hsettled

/-- **What is noted of a member that was not edited.** -/
theorem noted?_of_kept (hprior : prior.WellFormed) (hschema : prior.schema = live.schema)
    (hkey : wire = live.schema.keyWire → live.key = prior.key)
    (hvalue : live.value? wire = prior.value? wire) :
    live.noted? key prior wire = prior.unsettled? wire := by
  unfold noted? unsettled?
  rw [hvalue]
  split
  · rename_i hwire
    rw [if_pos (hkey hwire), hwire, ← hschema, hprior.value?_keyWire]
  cases hv : prior.value? wire with
  | none => rfl
  | some v =>
    cases v with
    | many related => rfl
    | scalar x =>
      by_cases hx : x.isOrdinary = true
      · simp [Scalar.same_self_iff.2 hx, hx]
      · simp [mt Scalar.same_self_iff.1 hx, hx]
    | one related => exact if_pos (sameReference_self _)

/-- **What is noted of a record that is compared with itself.** -/
theorem get?_diff_self (h : r.WellFormed) (hdiff : r.diff reference r = .ok changes)
    (hkeys : ∀ i j, reference i = .ok j → key i = j) (wire : String) :
    changes.get? wire = r.unsettled? wire :=
  (get?_diff h h rfl hdiff hkeys wire).trans (noted?_of_kept h rfl (fun _ => rfl) rfl)

/-- A change set says nothing but what differs from itself. -/
theorem WellFormed.isEmpty_iff (h : r.WellFormed)
    (hsaid : ∀ wire, changes.get? wire = r.unsettled? wire) :
    changes.isEmpty = true ↔ r.IsOrdinary := by
  rw [ChangeSet.isEmpty_iff, h.isOrdinary_iff]
  exact forall_congr' fun wire => by rw [hsaid wire]

end Record

/-! ## Entities that were not edited -/

namespace Tracked

variable {heap past : Heap} {t : Tracked} {live before : Record EntityId} {o : Option Pending}
  {wire : String}

/-- What is sent of a member that holds what it held when the snapshot was taken. -/
theorem TakenIn.said?_of_kept (htaken : t.TakenIn past heap) (hheap : heap.WellFormed)
    (hfits : t.Fits heap) (hlive : heap.record? t.entity = some live)
    (hbefore : past.record? t.entity = some before) (ho : t.pending? heap = .ok o)
    (hkey : wire = live.schema.keyWire → live.key = before.key)
    (hvalue : live.value? wire = before.value? wire) :
    Pending.said? o wire = before.unsettled? wire := by
  obtain rfl : t.original = before :=
    Option.some.inj ((Heap.record?_of_read htaken.read).symm.trans hbefore)
  rw [hfits.said? hheap hlive ho]
  exact Record.noted?_of_kept hfits.wellFormed (hfits.schema_eq hlive) hkey hvalue

/-- An entity that holds all it held then has an entry just when it holds a NaN. -/
theorem TakenIn.pending?_of_unedited (htaken : t.TakenIn past heap) (hheap : heap.WellFormed)
    (hfits : t.Fits heap) (hsame : heap.record? t.entity = past.record? t.entity)
    (ho : t.pending? heap = .ok o) :
    (o = none ↔ t.original.IsOrdinary) ∧
      ∀ wire, Pending.said? o wire = t.original.unsettled? wire := by
  have hbefore := Heap.record?_of_read htaken.read
  have hsaid : ∀ wire, Pending.said? o wire = t.original.unsettled? wire := fun wire =>
    htaken.said?_of_kept hheap hfits (hsame.trans hbefore) hbefore ho (fun _ => rfl) rfl
  refine ⟨?_, hsaid⟩
  obtain ⟨live, changes, -, rfl⟩ := pending?_eq_ok.1 ho
  rw [pendingOf_eq_none]
  exact hfits.wellFormed.isEmpty_iff fun wire => (Pending.said?_pendingOf heap t changes wire) ▸
    hsaid wire

end Tracked

/-- The snapshot of an entity whose changes are acknowledged is the one of its turn. -/
theorem Sweep.taken?_of_turn {σ : Type} {g : Gateway σ} {ts : List Tracked} {world : World σ}
    (hnodup : (ts.map Tracked.entity).Nodup) {turn : Turn σ} (hturn : turn ∈ turns g ts world)
    (hacknowledged : turn.isAcknowledged g = true) :
    taken? g ts world turn.tracked.entity = some turn.world.heap := by
  have hentities : ((turns g ts world).map fun turn => turn.tracked.entity).Nodup := by
    have hprefix := (isPrefix_turns g ts world).map Tracked.entity
    rw [List.map_map] at hprefix
    exact hprefix.sublist.nodup hnodup
  unfold taken?
  cases hfind : (turns g ts world).find? fun other =>
      other.tracked.entity = turn.tracked.entity && other.isAcknowledged g with
  | none =>
    rw [List.find?_eq_none] at hfind
    exact absurd hacknowledged (by simpa using hfind turn hturn)
  | some other =>
    have hother : other.tracked.entity = turn.tracked.entity := by
      have h := List.find?_some hfind
      simp only [Bool.and_eq_true, decide_eq_true_eq] at h
      exact h.1
    obtain rfl : other = turn :=
      List.inj_on_of_nodup_map hentities (List.mem_of_find?_eq_some hfind) hturn hother
    rfl

/-! ## In every session -/

namespace Chronicle

variable {c : Chronicle}

/-- What is sent of what was not edited: nothing but NaNs. In each case `heap` is any later heap. -/
structure Rests (c : Chronicle) : Prop where
  /-- An entity compared with itself differs in what differs from itself. -/
  itself : ∀ heap, c.session.heap.Changes heap → ∀ id r, heap.read id = .ok r →
    Record.Refers heap.reference r.values → ∃ changes, heap.diff id r = .ok changes ∧
      (changes.isEmpty = true ↔ r.IsOrdinary) ∧ ∀ wire, changes.get? wire = r.unsettled? wire
  /-- The same is pending of an entity that is as it was when its snapshot was taken. -/
  unedited : ∀ heap, c.session.heap.Changes heap → ∀ t ∈ c.session.tracker.records,
    heap.record? t.entity = (c.taken t.entity).record? t.entity → ∀ o, t.pending? heap = .ok o →
      (o = none ↔ t.original.IsOrdinary) ∧
        ∀ wire, Pending.said? o wire = t.original.unsettled? wire
  /-- If it still is when its turn in a commit comes, the same is sent. -/
  patched : ∀ {σ : Type} (g : Gateway σ) (far : σ), g.Orderly →
    ∀ turn ∈ Sweep.turns g c.session.tracker.records (c.session.world far),
      let t := turn.tracked
      turn.world.heap.record? t.entity = (c.taken t.entity).record? t.entity →
        ∀ p, turn.pending? = some p →
          ¬ t.original.IsOrdinary ∧ ∀ wire, p.changes.get? wire = t.original.unsettled? wire
  /-- After a commit that broke off, what was acknowledged is not sent again: a member that holds
  what it held at the turn of its entity is sent only if it differs from itself. -/
  retried : ∀ {σ : Type} (g : Gateway σ) (far : σ), g.Orderly →
    (∃ e, (c.session.tracker.commit g (c.session.world far)).result = .error e) →
    ∀ turn ∈ Sweep.turns g c.session.tracker.records (c.session.world far),
      turn.isAcknowledged g = true →
      ∃ t ∈ (c.commit g far).session.tracker.records, t.entity = turn.tracked.entity ∧
        turn.world.heap.read t.entity = .ok t.original ∧
        ∀ heap, (c.commit g far).session.heap.Changes heap → ∀ live,
          heap.record? t.entity = some live → ∀ o, t.pending? heap = .ok o → ∀ wire,
          (wire = live.schema.keyWire → live.key = t.original.key) →
          live.value? wire = t.original.value? wire →
          Pending.said? o wire = t.original.unsettled? wire
  /-- Unless something is poisoned, what is pending can be told. -/
  told : ∀ heap, c.session.heap.Changes heap → heap.IsSound → ∀ t ∈ c.session.tracker.records,
    ∃ o, t.pending? heap = .ok o

/-- A commit that fails goes on tracking what was tracked. -/
theorem entities_commit {σ : Type} {g : Gateway σ} {far : σ} {e : Error}
    (he : (c.session.tracker.commit g (c.session.world far)).result = .error e) :
    (c.commit g far).session.tracker.entities = c.session.tracker.entities := by
  cases hresult : (Sweep.run g c.session.tracker.records (c.session.world far)).result with
  | ok n =>
    rw [UnitOfWork.commit_of_ok hresult] at he
    cases he
  | error e' =>
    unfold Chronicle.commit Session.commit UnitOfWork.entities
    rw [UnitOfWork.commit_of_error hresult]
    exact Sweep.entities_run g _ _

/-- **After a commit that fails, the snapshot of what was acknowledged is the one of its turn.** -/
theorem Reachable.exists_takenIn {σ : Type} {g : Gateway σ} {far : σ} {e : Error}
    (h : c.Reachable) (hg : g.Orderly)
    (he : (c.session.tracker.commit g (c.session.world far)).result = .error e)
    {turn : Sweep.Turn σ}
    (hturn : turn ∈ Sweep.turns g c.session.tracker.records (c.session.world far))
    (hacknowledged : turn.isAcknowledged g = true) :
    ∃ t ∈ (c.commit g far).session.tracker.records, t.entity = turn.tracked.entity ∧
      t.TakenIn turn.world.heap (c.commit g far).session.heap := by
  have hmem : turn.tracked.entity ∈ (c.commit g far).session.tracker.entities :=
    entities_commit he ▸ List.mem_map_of_mem (Sweep.mem_of_mem_turns hturn)
  obtain ⟨t, ht, hentity⟩ := List.mem_map.1 hmem
  have htaken := (h.tail (.commit far hg)).inv t ht
  have hpast : (c.commit g far).taken t.entity = turn.world.heap := by
    unfold Chronicle.commit
    rw [hentity]
    dsimp only
    rw [Sweep.taken?_of_turn h.session.inv.nodup hturn hacknowledged, Option.getD_some]
  exact ⟨t, ht, hentity, hpast ▸ htaken⟩

/-- **What was not edited rests**, NaNs apart. -/
theorem Reachable.rests (h : c.Reachable) : c.Rests := by
  have inv := h.session.inv
  have hwellFormed : ∀ heap, c.session.heap.Changes heap → heap.WellFormed :=
    fun heap hchanges => hchanges.keeps.wellFormed inv.heap
  have hunedited : ∀ heap, c.session.heap.Changes heap → ∀ t ∈ c.session.tracker.records,
      heap.record? t.entity = (c.taken t.entity).record? t.entity → ∀ o, t.pending? heap = .ok o →
        (o = none ↔ t.original.IsOrdinary) ∧
          ∀ wire, Pending.said? o wire = t.original.unsettled? wire :=
    fun heap hchanges t ht hsame o ho => ((h.inv t ht).mono hchanges).pending?_of_unedited
      (hwellFormed heap hchanges) ((inv.faithful t ht).fits.mono hchanges.keeps) hsame ho
  constructor
  case itself =>
    intro heap hchanges id r hread hrefers
    have hr := (hwellFormed heap hchanges _ _ (Heap.record?_of_read hread)).1
    obtain ⟨changes, hdiff⟩ := Record.exists_diff hrefers hrefers
    have hsaid : ∀ wire, changes.get? wire = r.unsettled? wire :=
      Record.get?_diff_self hr hdiff fun _ _ => Heap.keyOf_of_reference
    exact ⟨changes, Heap.diff_eq_ok.2 ⟨Heap.schema?_of_read hread, r, hread, hdiff⟩,
      hr.isEmpty_iff hsaid, hsaid⟩
  case unedited => exact hunedited
  case patched =>
    intro σ g far hg turn hturn t hsame p hp
    obtain ⟨hnone, hsaid⟩ := hunedited _ (Sweep.changes_turns hg hturn) t
      (Sweep.mem_of_mem_turns hturn) hsame _ (Tracked.pending?_of_turn hp)
    exact ⟨fun hordinary => Option.some_ne_none p (hnone.2 hordinary), hsaid⟩
  case retried =>
    intro σ g far hg hfails turn hturn hacknowledged
    obtain ⟨e, he⟩ := hfails
    obtain ⟨t, ht, hentity, htaken⟩ := h.exists_takenIn hg he hturn hacknowledged
    refine ⟨t, ht, hentity, htaken.read, ?_⟩
    intro heap hchanges live hlive o ho wire hkey hvalue
    have inv' := (h.tail (.commit far hg)).session.inv
    exact (htaken.mono hchanges).said?_of_kept (hchanges.keeps.wellFormed inv'.heap)
      ((inv'.faithful t ht).fits.mono hchanges.keeps) hlive (Heap.record?_of_read htaken.read) ho
      hkey hvalue
  case told =>
    intro heap hchanges hsound t ht
    exact ((inv.faithful t ht).fits.mono hchanges.keeps).exists_pending?
      (hwellFormed heap hchanges) hsound

/-! Two gauges, of which the first shows a NaN. -/

/-- A record type with a double. -/
def gauge : Schema :=
  { model := "gauge", collection := "gauge", keyWire := "id", keyKind := .text,
    members := [⟨"level", .scalar .float⟩] }

/-- A gauge. -/
def gaugeOf (key : String) (level : Binary64) : Record EntityId :=
  { schema := gauge, key := .text key, values := [.scalar (.float level)] }

/-- The gauges before anything is tracked. -/
def gauges : Chronicle :=
  { session :=
      { tracker := { accessors := .ofCatalog [gauge] }
        heap := { cells := [⟨gaugeOf "a" .nan, false⟩, ⟨gaugeOf "b" (.zero false), false⟩] } } }

/-- Both are tracked, and the second shows something else. -/
def measured : Chronicle :=
  let c := gauges.registerAll [0, 1]
  { c with
    session :=
      { c.session with
        heap :=
          { cells := [⟨gaugeOf "a" .nan, false⟩, ⟨gaugeOf "b" (.infinity true), false⟩] } } }

/-- The store takes the first gauge, and never the second. -/
def refusing : Script :=
  { answers := [((.patch, "items/gauge/a"), .response ⟨200, []⟩),
      ((.patch, "items/gauge/b"), .broken "down")] }

theorem isInitial_gauges : gauges.session.IsInitial where
  heap := by
    intro id r h
    have hwires : gauge.wires.Nodup := by decide
    match id, h with
    | 0, h | 1, h =>
      cases h
      exact ⟨⟨hwires, .cons trivial .nil⟩, by simp [Heap.Closes, gaugeOf, Record.related,
        Value.toOne?, Value.toMany]⟩
    | _ + 2, h => cases h
  records := rfl
  accessors := ⟨[.remote gauge], rfl⟩

theorem reachable_measured : measured.Reachable := by
  have hedit : (gauges.registerAll [0, 1]).session.heap.edit 1
      (.scalar "level" (.float (.infinity true))) = .ok measured.session.heap := rfl
  have hregister : Step gauges (gauges.registerAll [0, 1]) := .register [0, 1]
  have hmeasured : Step (gauges.registerAll [0, 1]) measured := .change (.edit hedit)
  exact ⟨gauges, isInitial_gauges, (Relation.ReflTransGen.single hregister).tail hmeasured⟩

/-- A commit breaks off at the second gauge. Nobody has edited the first, it was acknowledged, and it
waits again. -/
theorem rests_refused :
    (measured.commit Script.gateway refusing).Rests ∧
      (measured.commit Script.gateway refusing).heard = [(0, ⟨[("level", .null)]⟩)] ∧
      (measured.commit Script.gateway refusing).session.tracker.pending
        (measured.commit Script.gateway refusing).session.heap =
          .ok [⟨"gauge", "a", ⟨[("level", .null)]⟩⟩, ⟨"gauge", "b", ⟨[("level", .null)]⟩⟩] :=
  ⟨Reachable.rests (reachable_measured.tail (.commit refusing Script.orderly)), rfl, rfl⟩

/-- **An entity that nobody edited can differ from itself**: one that holds a NaN does. -/
theorem not_clean_nan :
    ¬ ∀ s : Session, s.Reachable → ∀ id r, s.heap.read id = .ok r →
      ∃ changes, s.heap.diff id r = .ok changes ∧ changes.isEmpty = true := by
  intro hall
  have hreachable : gauges.session.Reachable := ⟨_, isInitial_gauges, .refl⟩
  obtain ⟨changes, hdiff, hempty⟩ := hall _ hreachable 0 (gaugeOf "a" .nan) rfl
  have hsaid : gauges.session.heap.diff 0 (gaugeOf "a" .nan) = .ok ⟨[("level", .null)]⟩ := rfl
  cases hsaid.symm.trans hdiff
  cases hempty

end Chronicle

end ItemClient
