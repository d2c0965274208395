import ItemClient.Proofs.Session.Reference

/-!
# Change sets as patches

A record seen flat is one JSON object: its key and its scalars as JSON, and for each relation to one
what refers to the related entity, `null` when there is none (`Heap.flat`). Relations to many have
no place in it. A change set is laid over such an object by putting each of its entries.

**Diff and apply** (`Heap.diff_patches`). The change set from `prior` to `live` laid over `prior`
gives `live`, and it holds no more than that takes: a member is in it exactly when its value is
another. Two records can be compared exactly when all that their relations to one lead to can be
read.

The values of the two objects are told apart by name (`Heap.get?_flat`), and so is what the change
set says (`Record.get?_diff`), so the proof goes by the kind of the member under a name
(`Record.WellFormed.value?_cases`).
-/

namespace ItemClient

/-! ## Flat records -/

/-- What a member says in a flat record. -/
def Value.flatJson? {ρ : Type} (key : ρ → Json) : Value ρ → Option Json
  | .scalar v => some v.toJson
  | .one related => some (related.elim .null key)
  | .many _ => none

/-- A record as one object. -/
def Heap.flat (heap : Heap) (r : Record EntityId) : Members Json :=
  Members.ofList ((r.schema.keyWire, r.key.toJson) ::
    entriesOf (Value.flatJson? heap.keyOf) r.schema.members r.values)

/-- Objects with the same value under every name are equal. -/
theorem Json.sameMembers_of_get? {ms ns : Members Json} (hms : ms.Ascending) (hns : ns.Ascending)
    (h : ∀ name, Option.Rel (fun a b => a.same b = true) (ms.get? name) (ns.get? name)) :
    Json.sameMembers ms ns = true := by
  have hmem : ∀ name, name ∈ ms.names ↔ name ∈ ns.names := by
    intro name
    rw [← Members.isSome_get?_iff, ← Members.isSome_get?_iff]
    have hrel := h name
    revert hrel
    cases ms.get? name <;> cases ns.get? name <;> simp
  have hnames : ms.names = ns.names := by
    have hperm : ms.names.Perm ns.names := (List.perm_ext_iff_of_nodup hms.nodup hns.nodup).2 hmem
    exact hperm.eq_of_pairwise (fun a b _ _ hab hba => absurd hba (lt_asymm hab)) hms hns
  apply (Json.sameMembers_iff hnames hms.nodup).2
  intro name a ha
  have hrel := h name
  rw [(Members.get?_eq_some_iff hms.nodup).2 ha] at hrel
  cases hb : ns.get? name with
  | none => simp [hb] at hrel
  | some b => exact ⟨b, (Members.get?_eq_some_iff hns.nodup).1 hb, by simpa [hb] using hrel⟩

theorem get?_entriesOf {ρ : Type} (f : Value ρ → Option Json) {ms : List Member}
    (vs : List (Value ρ)) (hnodup : (ms.map Member.wire).Nodup) (wire : String) :
    Members.get? wire (entriesOf f ms vs) =
      ((ms.zip vs).find? (·.1.wire = wire)).bind fun x => f x.2 := by
  induction ms generalizing vs with
  | nil => rfl
  | cons m ms ih =>
    cases vs with
    | nil => rfl
    | cons v vs =>
      obtain ⟨hm, hnodup⟩ := List.nodup_cons.1 hnodup
      have hrest := ih vs hnodup
      -- Where the first member has nothing to say no later one says it under its name.
      have hnone : m.wire = wire → Members.get? wire (entriesOf f ms vs) = none := by
        intro hwire
        apply Members.get?_eq_none
        intro hmem
        exact hm (hwire ▸ (sublist_names_entriesOf f ms vs).subset hmem)
      unfold entriesOf at hrest hnone ⊢
      by_cases hwire : m.wire = wire
      · cases hf : f v <;> simp_all [Members.get?]
      · cases hf : f v <;> simp_all [Members.get?]

theorem Heap.get?_flat (heap : Heap) {r : Record EntityId} (hr : r.WellFormed) (wire : String) :
    (heap.flat r).get? wire =
      if wire = r.schema.keyWire then some r.key.toJson
      else (r.value? wire).bind (Value.flatJson? heap.keyOf) := by
  have hwires := hr.wires
  rw [Schema.wires, List.nodup_cons] at hwires
  have hsub := sublist_names_entriesOf (Value.flatJson? heap.keyOf) r.schema.members r.values
  have hnodup : ((r.schema.keyWire, r.key.toJson) ::
      entriesOf (Value.flatJson? heap.keyOf) r.schema.members r.values).map Prod.fst |>.Nodup := by
    rw [List.map_cons, List.nodup_cons]
    exact ⟨fun hmem => hwires.1 (hsub.subset hmem), hwires.2.sublist hsub⟩
  rw [flat, Members.get?_ofList hnodup, Members.get?, get?_entriesOf _ _ hwires.2, Record.value?,
    Option.bind_map]
  by_cases hwire : wire = r.schema.keyWire
  · rw [if_pos hwire, if_pos hwire.symm]
  · rw [if_neg hwire, if_neg (Ne.symm hwire)]
    rfl

/-! ## Change sets are objects -/

namespace ChangeSet

variable {changes : ChangeSet} {field : String}

theorem ascending_track (h : changes.fields.Ascending) (live prior : Scalar) :
    (changes.track field live prior).fields.Ascending := by
  unfold track
  split
  · exact h
  · exact h.put _ _

theorem ascending_trackReference (h : changes.fields.Ascending) (live prior : Option Json) :
    (changes.trackReference field live prior).fields.Ascending := by
  unfold trackReference
  split
  · exact h
  · exact h.put _ _

end ChangeSet

namespace Record

variable {ρ : Type} {reference : ρ → Result Json} {changes changes' : ChangeSet} {ms : List Member}
  {vs ws vs' ws' : List (Value ρ)} {live prior live' prior' : Record ρ}

theorem ascending_diffMembers (h : diffMembers reference ms vs ws changes = .ok changes')
    (hchanges : changes.fields.Ascending) : changes'.fields.Ascending := by
  induction ms generalizing vs ws changes with
  | nil =>
    cases h
    exact hchanges
  | cons m ms ih =>
    cases vs with
    | nil =>
      cases h
      exact hchanges
    | cons v vs =>
      cases ws with
      | nil =>
        cases h
        exact hchanges
      | cons w ws =>
        cases v with
        | scalar live =>
          cases w with
          | scalar prior => exact ih h (ChangeSet.ascending_track hchanges _ _)
          | _ => exact ih h hchanges
        | one live =>
          cases w with
          | one prior =>
            obtain ⟨a, -, h⟩ := Result.bind_eq_ok.1 h
            obtain ⟨b, -, h⟩ := Result.bind_eq_ok.1 h
            exact ih h (ChangeSet.ascending_trackReference hchanges _ _)
          | _ => exact ih h hchanges
        | many live => cases w <;> exact ih h hchanges

theorem ascending_diff (h : live.diff reference prior = .ok changes) :
    changes.fields.Ascending := by
  have hempty : ({} : ChangeSet).fields.Ascending := List.Pairwise.nil
  apply ascending_diffMembers h
  unfold diffKey
  split
  · exact hempty
  · exact hempty.put _ _

/-! ## When records can be compared -/

theorem referenceOf?_refers {related : Option ρ} {a : Option Json}
    (h : referenceOf? reference related = .ok a) : ∀ i, related = some i →
      ∃ j, reference i = .ok j := by
  intro i hi
  subst hi
  obtain ⟨j, hj, -⟩ := Result.map_eq_ok.1 h
  exact ⟨j, hj⟩

/-- Relations to one that were compared lead to what can be read. -/
theorem refers_of_diffMembers (hvs : List.Forall₂ (fun m v => m.type.Holds v) ms vs)
    (hws : List.Forall₂ (fun m v => m.type.Holds v) ms ws)
    (h : diffMembers reference ms vs ws changes = .ok changes') :
    Refers reference vs ∧ Refers reference ws := by
  induction hvs generalizing ws changes with
  | nil =>
    cases hws
    exact ⟨fun _ hi => absurd hi List.not_mem_nil, fun _ hi => absurd hi List.not_mem_nil⟩
  | @cons m v ms vs hv _ ih =>
    cases hws with
    | @cons _ w _ ws hw hws =>
      cases v with
      | scalar live =>
        cases w with
        | scalar prior =>
          have hrest := ih hws h
          simpa [Refers] using hrest
        | _ => cases htype : m.type <;> simp_all [MemberType.Holds]
      | many live =>
        cases w with
        | many prior =>
          have hrest := ih hws h
          simpa [Refers] using hrest
        | _ => cases htype : m.type <;> simp_all [MemberType.Holds]
      | one live =>
        cases w with
        | one prior =>
          obtain ⟨a, ha, h⟩ := Result.bind_eq_ok.1 h
          obtain ⟨b, hb, h⟩ := Result.bind_eq_ok.1 h
          obtain ⟨hlive, hprior⟩ := ih hws h
          constructor
          · intro i hi
            rcases List.mem_cons.1 hi with heq | hi
            · cases heq
              exact referenceOf?_refers ha i rfl
            · exact hlive i hi
          · intro i hi
            rcases List.mem_cons.1 hi with heq | hi
            · cases heq
              exact referenceOf?_refers hb i rfl
            · exact hprior i hi
        | _ => cases htype : m.type <;> simp_all [MemberType.Holds]

/-- **Records can be compared** exactly when all that their relations to one lead to has a key that
can be read. -/
theorem exists_diff_iff (hlive : live.WellFormed) (hprior : prior.WellFormed)
    (hschema : prior.schema = live.schema) :
    (∃ changes, live.diff reference prior = .ok changes) ↔
      Refers reference live.values ∧ Refers reference prior.values := by
  constructor
  · intro h
    obtain ⟨changes, h⟩ := h
    exact refers_of_diffMembers hlive.values (hschema ▸ hprior.values) h
  · intro h
    exact exists_diff h.1 h.2

/-! ## Relations to many -/

end Record

/-- Values that are the same, unless they are relations to many. -/
inductive Value.AgreesButMany {ρ : Type} : Value ρ → Value ρ → Prop
  | refl (v : Value ρ) : AgreesButMany v v
  | many (related others : List ρ) : AgreesButMany (.many related) (.many others)

/-- Records that are the same, but for what relations to many hold. -/
structure Record.AgreesButMany {ρ : Type} (r r' : Record ρ) : Prop where
  schema : r.schema = r'.schema
  key : r.key = r'.key
  values : List.Forall₂ Value.AgreesButMany r.values r'.values

namespace Record

variable {ρ : Type} {reference : ρ → Result Json} {ms : List Member} {vs ws vs' ws' : List (Value ρ)}
  {live prior live' prior' : Record ρ}

theorem diffMembers_agrees (hvs : List.Forall₂ Value.AgreesButMany vs vs')
    (hws : List.Forall₂ Value.AgreesButMany ws ws') (changes : ChangeSet) :
    diffMembers reference ms vs ws changes = diffMembers reference ms vs' ws' changes := by
  induction ms generalizing vs vs' ws ws' changes with
  | nil => rfl
  | cons m ms ih =>
    cases hvs with
    | nil => rfl
    | @cons v v' vs vs' hv hvs =>
      cases hws with
      | nil => rfl
      | @cons w w' ws ws' hw hws =>
        have hrest := fun changes => ih hvs hws changes
        cases hv with
        | many related others =>
          cases hw with
          | many _ _ => exact hrest _
          | refl => cases w <;> exact hrest _
        | refl =>
          cases hw with
          | many related others => cases v <;> exact hrest _
          | refl => cases v <;> cases w <;> simp only [diffMembers, hrest]

theorem AgreesButMany.diff (h : live.AgreesButMany live') (h' : prior.AgreesButMany prior') :
    live.diff reference prior = live'.diff reference prior' := by
  unfold Record.diff diffKey
  rw [h.schema, h.key, h'.key]
  exact diffMembers_agrees h.values h'.values _

/-! ## Member by member -/

/-- No member is called like the key. -/
theorem WellFormed.ne_keyWire (hlive : live.WellFormed) {wire : String} {v : Value ρ}
    (hv : live.value? wire = some v) : wire ≠ live.schema.keyWire := by
  intro hwire
  rw [hwire, hlive.value?_keyWire] at hv
  cases hv

/-- What two records of one type hold under a name. -/
theorem WellFormed.value?_cases (hlive : live.WellFormed) (hprior : prior.WellFormed)
    (hschema : prior.schema = live.schema) (wire : String) :
    (live.value? wire = none ∧ prior.value? wire = none) ∨
    (∃ now before, live.value? wire = some (.scalar now) ∧
      prior.value? wire = some (.scalar before)) ∨
    (∃ now before, live.value? wire = some (.one now) ∧ prior.value? wire = some (.one before)) ∨
    ∃ now before, live.value? wire = some (.many now) ∧ prior.value? wire = some (.many before) := by
  have hvalues : List.Forall₂ (fun m v => m.type.Holds v) live.schema.members prior.values :=
    hschema ▸ hprior.values
  cases hv : live.value? wire with
  | none =>
    refine .inl ⟨rfl, ?_⟩
    cases hw : prior.value? wire with
    | none => rfl
    | some w =>
      obtain ⟨m, hm, hwire⟩ := hprior.value?_eq_some_iff.1 hw
      obtain ⟨v, -, hmv, -, -⟩ := exists_zip_zip hvalues hlive.values (hschema ▸ hm)
      rw [hlive.value?_eq_some_iff.2 ⟨m, hmv, hwire⟩] at hv
      cases hv
  | some v =>
    obtain ⟨m, hm, rfl⟩ := hlive.value?_eq_some_iff.1 hv
    obtain ⟨w, -, hmw, hvHolds, hwHolds⟩ := exists_zip_zip hlive.values hvalues hm
    rw [hprior.value?_eq_some_iff.2 ⟨m, hschema ▸ hmw, rfl⟩]
    cases v <;> cases w <;> cases htype : m.type <;> simp_all [MemberType.Holds]

end Record

/-! ## Diff and apply -/

namespace Heap

variable {heap : Heap} {live prior : Record EntityId} {changes : ChangeSet}

/-- The change set from `prior` to `live`, as a patch of flat records. -/
structure Patches (heap : Heap) (live prior : Record EntityId) (changes : ChangeSet) : Prop where
  /-- Laid over the record before it gives the record as it is. -/
  apply : (Json.object (Members.putAll changes.fields (heap.flat prior))).same
    (.object (heap.flat live)) = true
  /-- The key is in it when it is another. -/
  key : changes.get? live.schema.keyWire =
    if live.key = prior.key then none else some live.key.toJson
  /-- A scalar is in it when the values are not equal. -/
  scalars : ∀ wire now before, live.value? wire = some (.scalar now) →
    prior.value? wire = some (.scalar before) →
    changes.get? wire = if now.same before then none else some now.toJson
  /-- A relation to one is in it when what refers to the related entity is another, or was there
  before or is there now alone. One that leads nowhere now is in it with `null`. -/
  relations : ∀ wire now before, live.value? wire = some (.one now) →
    prior.value? wire = some (.one before) →
    changes.get? wire =
      if (heap.keyAt now).same (heap.keyAt before) then none else some (heap.keyAt now)
  /-- Nothing else is in it, and so no relation to many. -/
  others : ∀ wire, changes.contains wire = true → wire = live.schema.keyWire ∨
    ∃ v, live.value? wire = some v ∧ ∀ related, v ≠ .many related
  /-- It is the same whatever relations to many hold. -/
  many : ∀ live' prior', Record.AgreesButMany live live' → Record.AgreesButMany prior prior' →
    live'.diff heap.reference prior' = .ok changes

theorem exists_key_of_reference {id : EntityId} {j : Json} (h : heap.reference id = .ok j) :
    ∃ k : Key, heap.keyOf id = k.toJson := by
  obtain ⟨r, hr, hj⟩ := Result.map_eq_ok.1 h
  exact ⟨r.key, (keyOf_of_reference h).trans hj.symm⟩

/-- References are compared as they are written down, with `null` for none: no key is `null`. -/
theorem sameReference_map_keyOf {now before : Option EntityId}
    (hnow : ∀ i, now = some i → ∃ j, heap.reference i = .ok j)
    (hbefore : ∀ i, before = some i → ∃ j, heap.reference i = .ok j) :
    ChangeSet.sameReference (now.map heap.keyOf) (before.map heap.keyOf) =
      (heap.keyAt now).same (heap.keyAt before) := by
  have hnull : ∀ k : Key, k.toJson.same .null = false ∧ Json.same .null k.toJson = false := by
    intro k
    cases k <;> exact ⟨rfl, rfl⟩
  cases now with
  | none =>
    cases before with
    | none => rfl
    | some i =>
      obtain ⟨j, hj⟩ := hbefore i rfl
      obtain ⟨k, hk⟩ := exists_key_of_reference hj
      show false = Json.same .null (heap.keyOf i)
      rw [hk, (hnull k).2]
  | some i =>
    obtain ⟨j, hj⟩ := hnow i rfl
    obtain ⟨k, hk⟩ := exists_key_of_reference hj
    cases before with
    | none =>
      show false = (heap.keyOf i).same .null
      rw [hk, (hnull k).1]
    | some i' => rfl

theorem getD_map_keyOf (heap : Heap) (target : Option EntityId) :
    (target.map heap.keyOf).getD .null = heap.keyAt target := by
  cases target <;> rfl

section Diff

variable (hlive : live.WellFormed) (hprior : prior.WellFormed)
  (hschema : prior.schema = live.schema) (h : live.diff heap.reference prior = .ok changes)

include hlive hprior hschema h

theorem get?_diff_scalar {wire : String} {now before : Scalar}
    (hnow : live.value? wire = some (.scalar now))
    (hbefore : prior.value? wire = some (.scalar before)) :
    changes.get? wire = if now.same before then none else some now.toJson := by
  rw [Record.get?_diff hlive hprior hschema h (fun _ _ => keyOf_of_reference) wire]
  unfold Record.noted?
  rw [if_neg (hlive.ne_keyWire hnow), hnow, hbefore]

theorem get?_diff_one {wire : String} {now before : Option EntityId}
    (hnow : live.value? wire = some (.one now)) (hbefore : prior.value? wire = some (.one before)) :
    changes.get? wire =
      if (heap.keyAt now).same (heap.keyAt before) then none else some (heap.keyAt now) := by
  have hrefers := (Record.exists_diff_iff hlive hprior hschema).1 ⟨changes, h⟩
  have hsame : ChangeSet.sameReference (now.map heap.keyOf) (before.map heap.keyOf) =
      (heap.keyAt now).same (heap.keyAt before) := by
    apply sameReference_map_keyOf
    · intro i hi
      exact hrefers.1 i (hi ▸ Record.mem_values_of_value? hnow)
    · intro i hi
      exact hrefers.2 i (hi ▸ Record.mem_values_of_value? hbefore)
  rw [Record.get?_diff hlive hprior hschema h (fun _ _ => keyOf_of_reference) wire]
  unfold Record.noted?
  rw [if_neg (hlive.ne_keyWire hnow), hnow, hbefore]
  dsimp only
  rw [hsame, getD_map_keyOf]

/-- Under each name the change set laid over the record before says what the record says. -/
theorem get?_patched (wire : String) :
    Option.Rel (fun a b => a.same b = true)
      ((Members.putAll changes.fields (heap.flat prior)).get? wire) ((heap.flat live).get? wire) := by
  have hnodup := (Record.ascending_diff h).nodup
  have hget := Record.get?_diff hlive hprior hschema h (fun _ _ => keyOf_of_reference) wire
  rw [Members.get?_putAll hnodup, get?_flat heap hlive, get?_flat heap hprior, hschema]
  change Option.Rel _ ((changes.get? wire).or _) _
  by_cases hkey : wire = live.schema.keyWire
  · rw [hget, Record.noted?, if_pos hkey, if_pos hkey, if_pos hkey]
    by_cases hsame : live.key = prior.key
    · rw [if_pos hsame, hsame]
      exact .some (Json.same_refl _)
    · rw [if_neg hsame]
      exact .some (Json.same_refl _)
  · rw [if_neg hkey, if_neg hkey]
    obtain ⟨hnow, hbefore⟩ | ⟨now, before, hnow, hbefore⟩ | ⟨now, before, hnow, hbefore⟩ |
      ⟨now, before, hnow, hbefore⟩ := hlive.value?_cases hprior hschema wire
    · rw [hget, Record.noted?, if_neg hkey, hnow, hbefore]
      exact .none
    · rw [get?_diff_scalar hlive hprior hschema h hnow hbefore, hnow, hbefore]
      by_cases hsame : now.same before = true
      · rw [if_pos hsame]
        exact .some (Json.same_symm (Scalar.toJson_same hsame))
      · rw [if_neg hsame]
        exact .some (Json.same_refl _)
    · rw [get?_diff_one hlive hprior hschema h hnow hbefore, hnow, hbefore]
      by_cases hsame : (heap.keyAt now).same (heap.keyAt before) = true
      · rw [if_pos hsame]
        exact .some (Json.same_symm hsame)
      · rw [if_neg hsame]
        exact .some (Json.same_refl _)
    · rw [hget, Record.noted?, if_neg hkey, hnow, hbefore]
      exact .none

theorem patches_of_diff : heap.Patches live prior changes where
  apply := by
    apply Json.sameMembers_of_get?
    · exact (Members.ascending_ofList _).putAll _
    · exact Members.ascending_ofList _
    · exact get?_patched hlive hprior hschema h
  key := (Record.diff_notes h hlive.wires).1
  scalars := fun _ _ _ hnow hbefore => get?_diff_scalar hlive hprior hschema h hnow hbefore
  relations := fun _ _ _ hnow hbefore => get?_diff_one hlive hprior hschema h hnow hbefore
  others := by
    intro wire hwire
    have hsaid : (changes.get? wire).isSome = true := hwire
    rw [Record.get?_diff hlive hprior hschema h (fun _ _ => keyOf_of_reference) wire] at hsaid
    by_cases hkey : wire = live.schema.keyWire
    · exact .inl hkey
    · unfold Record.noted? at hsaid
      rw [if_neg hkey] at hsaid
      right
      cases hv : live.value? wire with
      | none => simp [hv] at hsaid
      | some v =>
        refine ⟨v, rfl, ?_⟩
        intro related hmany
        simp [hv, hmany] at hsaid
  many := by
    intro live' prior' hagrees hagrees'
    rw [← hagrees.diff hagrees']
    exact h

end Diff

/-- **Diff and apply.** -/
theorem diff_patches (hlive : live.WellFormed) (hprior : prior.WellFormed)
    (hschema : prior.schema = live.schema) :
    ((∃ changes, live.diff heap.reference prior = .ok changes) ↔
      Record.Refers heap.reference live.values ∧ Record.Refers heap.reference prior.values) ∧
    ∀ changes, live.diff heap.reference prior = .ok changes →
      heap.Patches live prior changes :=
  ⟨Record.exists_diff_iff hlive hprior hschema,
    fun _ h => patches_of_diff hlive hprior hschema h⟩

/-! A shelf is compared with itself as it was: its weight was the other zero, it had a label, it
stood beside another entity for the same row, and it had a lower neighbour and two books. -/

/-- A record type with members of every sort. -/
def shelf : Schema :=
  { model := "shelf", collection := "shelf", keyWire := "slug", keyKind := .text,
    members := [⟨"weight", .scalar .float⟩, ⟨"label", .scalar (.optional .text)⟩,
      ⟨"beside", .one "shelf"⟩, ⟨"below", .one "shelf"⟩, ⟨"books", .many "shelf"⟩] }

/-- A shelf. -/
def shelfOf (key : String) (weight : Binary64) (label : Scalar) (beside below : Option EntityId)
    (books : List EntityId) : Record EntityId :=
  { schema := shelf, key := .text key,
    values := [.scalar (.float weight), .scalar label, .one beside, .one below, .many books] }

/-- Two shelves with the same key. -/
def shelves : Heap :=
  { cells := [⟨shelfOf "a" .nan .absent none none [], false⟩,
      ⟨shelfOf "a" .nan .absent none none [], false⟩] }

theorem wellFormed_shelfOf (key : String) (weight : Binary64) (label : Scalar)
    (beside below : Option EntityId) (books : List EntityId) :
    (shelfOf key weight label beside below books).WellFormed where
  wires := by
    show shelf.wires.Nodup
    decide
  values := .cons trivial (.cons trivial (.cons trivial (.cons trivial (.cons trivial .nil))))

/-- What was taken off the shelf is in the change set as `null`, and nothing else is in it. -/
theorem diff_patches_shelf :
    let live := shelfOf "b" (.zero true) .absent (some 1) none []
    let prior := shelfOf "b" (.zero false) (.present (.text "new")) (some 0) (some 1) [0, 1]
    let changes : ChangeSet := { fields := [("below", .null), ("label", .null)] }
    Record.Refers shelves.reference live.values ∧ Record.Refers shelves.reference prior.values ∧
      live.diff shelves.reference prior = .ok changes ∧ shelves.Patches live prior changes := by
  intro live prior changes
  have hdiff : live.diff shelves.reference prior = .ok changes := rfl
  have hpatches := @diff_patches shelves _ _
    (wellFormed_shelfOf "b" (.zero true) .absent (some 1) none [])
    (wellFormed_shelfOf "b" (.zero false) (.present (.text "new")) (some 0) (some 1) [0, 1]) rfl
  obtain ⟨hlive, hprior⟩ := hpatches.1.1 ⟨changes, hdiff⟩
  exact ⟨hlive, hprior, hdiff, hpatches.2 changes hdiff⟩

end Heap

end ItemClient
