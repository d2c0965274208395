import ItemClient.Proofs.Record.BareKey
import ItemClient.Proofs.Session.Chronicle
import ItemClient.Proofs.Session.InFlight

/-!
# Relations that lead elsewhere

A snapshot copies the key and the scalars of its entity, but its relations still lead to live
entities. So what a relation led to is told by the key that the entity it led to has now, and not
by the one that it had when the snapshot was taken.

**What is reported** (`Chronicle.Reachable.reports_relation_iff`). A relation is reported when the
key it leads to now differs from the present key of the entity that it led to in the snapshot.
This is right about a key held before exactly when comparing with either gives the same answer; in
particular when the entity that the snapshot leads to still has the key that it had then.

`not_detects_renamed` is a relation that leads elsewhere and is not reported.
-/

namespace ItemClient

/-! ## Keys as references -/

namespace Heap

variable {heap : Heap}

/-- What refers to the entity that a relation leads to; `null` when it leads nowhere. -/
def keyAt (heap : Heap) (target : Option EntityId) : Json := target.elim .null heap.keyOf

/-- A reference that is read is a key of the entity or nothing. -/
theorem referenceOf?_eq_ok {target : Option EntityId} {a : Option Json}
    (h : Record.referenceOf? heap.reference target = .ok a) :
    a = none ∧ heap.keyAt target = .null ∨
      ∃ k : Key, a = some k.toJson ∧ heap.keyAt target = k.toJson := by
  cases target with
  | none =>
    cases h
    exact .inl ⟨rfl, rfl⟩
  | some i =>
    obtain ⟨j, hj, rfl⟩ := Result.map_eq_ok.1 h
    have hkey := keyOf_of_reference hj
    obtain ⟨r, -, rfl⟩ := Result.map_eq_ok.1 hj
    exact .inr ⟨r.key, rfl, hkey⟩

/-- References that are read are the same when the keys are. -/
theorem sameReference_iff {now before : Option EntityId} {a b : Option Json}
    (ha : Record.referenceOf? heap.reference now = .ok a)
    (hb : Record.referenceOf? heap.reference before = .ok b) :
    ChangeSet.sameReference a b = true ↔ heap.keyAt now = heap.keyAt before := by
  rcases referenceOf?_eq_ok ha with ⟨rfl, hnow⟩ | ⟨k, rfl, hnow⟩ <;>
    rcases referenceOf?_eq_ok hb with ⟨rfl, hbefore⟩ | ⟨k', rfl, hbefore⟩ <;>
    rw [hnow, hbefore]
  · simp [ChangeSet.sameReference]
  · simp [ChangeSet.sameReference, (Key.toJson_ne_null k').symm]
  · simp [ChangeSet.sameReference, Key.toJson_ne_null k]
  · exact Key.same_toJson_iff

/-- What is written down of a reference that is read is the key. -/
theorem same_reference_iff {target : Option EntityId} {a : Option Json} {j : Json}
    (ha : Record.referenceOf? heap.reference target = .ok a) :
    j.same (a.getD .null) = true ↔ j = heap.keyAt target := by
  rcases referenceOf?_eq_ok ha with ⟨rfl, htarget⟩ | ⟨k, rfl, htarget⟩ <;> rw [htarget]
  · exact Json.same_null_iff
  · exact Key.same_toJson_iff

end Heap

/-! ## What is reported of a relation -/

namespace Session

variable {s : Session} {t : Tracked} {ps : List Pending} {live : Record EntityId} {m : Member}
  {now before : Option EntityId}

/-- A relation is reported, with `current` as its value, exactly when that differs from `held`. -/
def Detects (s : Session) (id : EntityId) (wire : String) (current held : Json) : Prop :=
  ∀ j, s.Reports id wire j ↔ current ≠ held ∧ j = current

/-- Which key counts as held decides what a report is right about. -/
theorem Detects.congr {id : EntityId} {wire : String} {current shared : Json}
    (h : s.Detects id wire current shared) (held : Json) :
    s.Detects id wire current held ↔ (current = shared ↔ current = held) := by
  constructor
  · intro hheld
    have hiff := (h current).symm.trans (hheld current)
    simp only [and_true] at hiff
    exact not_iff_not.1 hiff
  · intro hsame j
    rw [h j, ne_eq, ne_eq, hsame]

/-- What a relation to one leads to now, along with what it led to in the snapshot. -/
theorem Inv.exists_before (inv : s.Inv) (ht : t ∈ s.tracker.records)
    (hlive : s.heap.record? t.entity = some live) {wire : String}
    (hnow : live.value? wire = some (.one now)) :
    ∃ before m, t.original.value? wire = some (.one before) ∧ m.wire = wire ∧
      (m, .one now, .one before) ∈ live.schema.members.zip (live.values.zip t.original.values) := by
  have hwf := (inv.heap _ _ hlive).1
  have hfits := (inv.faithful t ht).fits
  have hschema := hfits.schema_eq hlive
  obtain ⟨m, hm, rfl⟩ := hwf.value?_eq_some_iff.1 hnow
  obtain ⟨w, hzip, hmw, hone, hw⟩ :=
    Record.exists_zip_zip hwf.values (hschema ▸ hfits.wellFormed.values) hm
  -- The member takes a relation to one, so the snapshot has one too.
  obtain ⟨before, rfl⟩ : ∃ before, w = .one before := by
    cases htype : m.type <;> cases w <;> simp_all [MemberType.Holds]
  exact ⟨before, m, hfits.wellFormed.value?_eq_some_iff.2 ⟨m, hschema ▸ hmw, rfl⟩, rfl, hzip⟩

/-- **A relation is compared with what the snapshot leads to now.** -/
theorem Inv.detects (inv : s.Inv) (hps : s.tracker.pending s.heap = .ok ps)
    (ht : t ∈ s.tracker.records) (hlive : s.heap.record? t.entity = some live)
    (hm : (m, .one now, .one before) ∈
      live.schema.members.zip (live.values.zip t.original.values)) :
    s.Detects t.entity m.wire (s.heap.keyAt now) (s.heap.keyAt before) := by
  obtain ⟨os, hos, -⟩ := Result.map_eq_ok.1 hps
  obtain ⟨o, -, ho⟩ := Result.exists_of_mem hos ht
  obtain ⟨live', changes, hdiffers, rfl⟩ := Tracked.pending?_eq_ok.1 ho
  obtain rfl : live' = live :=
    Option.some.inj ((Heap.record?_of_read hdiffers.read).symm.trans hlive)
  have hwires := (inv.heap _ _ hlive).1.wires
  obtain ⟨a, b, ha, hb, hsaid⟩ := (Record.diff_notes hdiffers.diff hwires).2 _ _ _ hm
  have hsame := Heap.sameReference_iff ha hb
  -- What is reported of the entity is what its own change set says.
  have hreports : ∀ j, s.Reports t.entity m.wire j ↔
      ∃ j', changes.get? m.wire = some j' ∧ j.same j' = true := by
    intro j
    constructor
    · rintro ⟨t', ht', hentity, p, hp, j', hj', hjj'⟩
      obtain rfl : t' = t := List.inj_on_of_nodup_map inv.nodup ht' ht hentity
      obtain rfl := (Tracked.pendingOf_eq_some (Except.ok.inj (ho.symm.trans hp))).2.2
      exact ⟨j', hj', hjj'⟩
    · rintro ⟨j', hj', hjj'⟩
      cases hp : t.pendingOf s.heap changes with
      | none =>
        rw [ChangeSet.get?_of_isEmpty (Tracked.pendingOf_eq_none.1 hp)] at hj'
        cases hj'
      | some p =>
        obtain rfl := (Tracked.pendingOf_eq_some hp).2.2
        exact ⟨t, ht, rfl, p, hp ▸ ho, j', hj', hjj'⟩
  intro j
  rw [hreports j, hsaid]
  by_cases heq : s.heap.keyAt now = s.heap.keyAt before
  · simp [hsame.2 heq, heq]
  · have hdiffer : ChangeSet.sameReference a b = false := by
      rw [← Bool.not_eq_true, hsame]
      exact heq
    simp [hdiffer, heq, Heap.same_reference_iff ha]

/-- In a sound heap all that is pending can be told. -/
theorem Inv.exists_pending (inv : s.Inv) (hsound : s.heap.IsSound) :
    ∃ ps, s.tracker.pending s.heap = .ok ps := by
  obtain ⟨os, hos⟩ := Result.exists_mapM fun t ht =>
    (inv.faithful t ht).fits.exists_pending? inv.heap hsound
  exact ⟨_, Result.map_eq_ok.2 ⟨os, hos, rfl⟩⟩

end Session

/-! ## In every session -/

namespace Chronicle

variable {c : Chronicle} {t : Tracked}

/-- What is reported of the relations of a tracked entity. -/
structure TellsRelations (c : Chronicle) (t : Tracked) : Prop where
  taken : t.TakenIn (c.taken t.entity) c.session.heap
  /-- Unless something is poisoned, what is pending can be told. -/
  pending : c.session.heap.IsSound → ∃ ps, c.session.tracker.pending c.session.heap = .ok ps
  /-- A relation is reported when its key differs from the one that what it led to has now. That
  is right about the key that this had when the snapshot was taken just when it makes no
  difference. -/
  relations : ∀ ps, c.session.tracker.pending c.session.heap = .ok ps →
    ∀ live, c.session.heap.read t.entity = .ok live →
    ∀ wire now, live.value? wire = some (.one now) →
    ∃ before, t.original.value? wire = some (.one before) ∧
      let current := c.session.heap.keyAt now
      let shared := c.session.heap.keyAt before
      let held := (c.taken t.entity).keyAt before
      c.session.Detects t.entity wire current shared ∧
        (shared = held → c.session.Detects t.entity wire current held) ∧
        (c.session.Detects t.entity wire current held ↔ (current = shared ↔ current = held))

/-- **What is reported of relations, in every session.** -/
theorem Reachable.tells_relations (h : c.Reachable) (ht : t ∈ c.session.tracker.records) :
    c.TellsRelations t := by
  have inv := h.session.inv
  constructor
  case taken => exact h.inv t ht
  case pending => exact inv.exists_pending
  case relations =>
    intro ps hps live hread wire now hnow
    have hlive := Heap.record?_of_read hread
    obtain ⟨before, m, hbefore, rfl, hm⟩ := inv.exists_before ht hlive hnow
    have hdetects := inv.detects hps ht hlive hm
    exact ⟨before, hbefore, hdetects, fun hsame => hsame ▸ hdetects, hdetects.congr _⟩

/-! Three tags, of which the first refers to the second. It is tracked with what it leads to, and
then it is made to refer to the third. -/

/-- The tags before anything is tracked. -/
def threeTags : Chronicle :=
  { session :=
      { tracker := { accessors := .ofCatalog [Session.tag] }
        heap :=
          { cells := [⟨Session.tagOf "a" "first" (some 1), false⟩,
              ⟨Session.tagOf "b" "second" none, false⟩, ⟨Session.tagOf "c" "third" none, false⟩] } } }

/-- The first tag refers to the third. -/
def pointed : Chronicle :=
  let c := threeTags.registerAll [0]
  { c with
    session :=
      { c.session with
        heap :=
          { cells := [⟨Session.tagOf "a" "first" (some 2), false⟩,
              ⟨Session.tagOf "b" "second" none, false⟩, ⟨Session.tagOf "c" "third" none, false⟩] } } }

/-- The second tag, to which it referred before, gets the key of the third. -/
def renamed : Chronicle :=
  { pointed with
    session :=
      { pointed.session with
        heap :=
          { cells := [⟨Session.tagOf "a" "first" (some 2), false⟩,
              ⟨Session.tagOf "c" "second" none, false⟩, ⟨Session.tagOf "c" "third" none, false⟩] } } }

theorem isInitial_threeTags : threeTags.session.IsInitial where
  heap := by
    intro id r h
    match id, h with
    | 0, h =>
      cases h
      exact ⟨Session.wellFormed_tagOf _ _ _, by simp [Heap.Closes, Session.tagOf, Record.related,
        Value.toOne?, Value.toMany, Heap.size, threeTags]⟩
    | 1, h | 2, h =>
      cases h
      exact ⟨Session.wellFormed_tagOf _ _ _, by simp [Heap.Closes, Session.tagOf, Record.related,
        Value.toOne?, Value.toMany]⟩
    | _ + 3, h => cases h
  records := rfl
  accessors := ⟨[.remote Session.tag], rfl⟩

theorem reachable_pointed : pointed.Reachable := by
  have hedit : (threeTags.registerAll [0]).session.heap.edit 0 (.relate "of" (some 2)) =
      .ok pointed.session.heap := rfl
  have hregister : Step threeTags (threeTags.registerAll [0]) := .register [0]
  have hpointed : Step (threeTags.registerAll [0]) pointed := .change (.edit hedit)
  exact ⟨threeTags, isInitial_threeTags, (Relation.ReflTransGen.single hregister).tail hpointed⟩

theorem reachable_renamed : renamed.Reachable := by
  have hedit : pointed.session.heap.edit 1 (.key (.text "c")) = .ok renamed.session.heap := rfl
  exact reachable_pointed.tail (.change (.edit hedit))

/-- As long as the second tag keeps its key, it is reported that the first refers to the third. -/
theorem tells_relations_pointed : ∃ t ∈ pointed.session.tracker.records,
    pointed.TellsRelations t ∧ t.entity = 0 ∧
      pointed.session.Detects 0 "of" (.string "c") (.string "b") := by
  have ht : pointed.session.tracker.records[0] ∈ pointed.session.tracker.records :=
    List.getElem_mem (by decide)
  have htells := Reachable.tells_relations reachable_pointed ht
  obtain ⟨before, hbefore, -, hheld, -⟩ := htells.relations _ rfl _ rfl "of" (some 2) rfl
  cases hbefore
  exact ⟨_, ht, htells, rfl, hheld rfl⟩

/-- **A relation can lead elsewhere without being reported**: what it led to before has got the
key of what it leads to now. -/
theorem not_detects_renamed :
    ¬ ∀ (c : Chronicle) (t : Tracked), c.Reachable → c.session.heap.IsSound →
      t ∈ c.session.tracker.records → ∀ live, c.session.heap.read t.entity = .ok live →
      ∀ wire now before, live.value? wire = some (.one now) →
        t.original.value? wire = some (.one before) →
        c.session.Detects t.entity wire (c.session.heap.keyAt now)
          ((c.taken t.entity).keyAt before) := by
  intro hall
  have ht : renamed.session.tracker.records[0] ∈ renamed.session.tracker.records :=
    List.getElem_mem (by decide)
  have hsound : renamed.session.heap.IsSound := by
    intro id
    match id with
    | 0 | 1 | 2 => rfl
    | _ + 3 => rfl
  have hclaimed : renamed.session.Detects 0 "of" (.string "c") (.string "b") :=
    hall renamed _ reachable_renamed hsound ht _ rfl "of" (some 2) (some 1) rfl rfl
  have hreported : renamed.session.Reports 0 "of" (.string "c") :=
    (hclaimed _).2 ⟨by simp, rfl⟩
  -- Compared is the key that the second tag has now.
  have hnow : (Session.tagOf "a" "first" (some 2)).value? "of" = some (.one (some 2)) := rfl
  have inv := reachable_renamed.session.inv
  obtain ⟨before, m, hbefore, hwire, hm⟩ := inv.exists_before ht rfl hnow
  cases hbefore
  have hdetects : renamed.session.Detects 0 m.wire (.string "c") (.string "c") :=
    inv.detects rfl ht rfl hm
  rw [hwire] at hdetects
  exact ((hdetects _).1 hreported).1 rfl

end Chronicle

end ItemClient
