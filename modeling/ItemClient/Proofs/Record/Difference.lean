import Mathlib.Data.List.Forall2
import ItemClient.Proofs.Json.Equality
import ItemClient.Proofs.Json.Members
import ItemClient.Proofs.Outcomes
import ItemClient.Record.ChangeSet

/-!
# What a change set says

The meaning of `Record.diff`, member by member. A record type gives each of its members a name of
its own, and a record holds a value of the declared type for each (`Record.WellFormed`). The
change set of two such records then says of each member whether its value changed, and if so what
it is now (`ChangeSet.Notes`, `Record.diff_notes`): the members before and after it in the
comparison neither hide nor disturb what it says.
-/

namespace ItemClient

namespace ChangeSet

@[simp] theorem get?_empty (wire : String) : ({} : ChangeSet).get? wire = none := rfl

@[simp] theorem get?_insert_self (changes : ChangeSet) (wire : String) (j : Json) :
    (changes.insert wire j).get? wire = some j :=
  Members.get?_put_self wire j changes.fields

theorem get?_insert_of_ne {wire other : String} (h : wire ≠ other) (changes : ChangeSet)
    (j : Json) : (changes.insert wire j).get? other = changes.get? other :=
  Members.get?_put_of_ne h j changes.fields

theorem get?_of_isEmpty {changes : ChangeSet} (h : changes.isEmpty = true) (wire : String) :
    changes.get? wire = none := by
  obtain ⟨fields⟩ := changes
  obtain rfl : fields = [] := List.isEmpty_iff.1 h
  rfl

end ChangeSet

/-! ## Well-formed records -/

/-- A value is of a declared type. -/
def MemberType.Holds {ρ : Type} : MemberType → Value ρ → Prop
  | .scalar _, .scalar _ => True
  | .one _, .one _ => True
  | .many _, .many _ => True
  | _, _ => False

/-- A record as its type declares it: names of members differ, and each member has a value. -/
structure Record.WellFormed {ρ : Type} (r : Record ρ) : Prop where
  wires : r.schema.wires.Nodup
  values : List.Forall₂ (fun m v => m.type.Holds v) r.schema.members r.values

/-! ## What is said of one member -/

/-- What a change set says of a member that holds `live` and held `prior`. -/
def ChangeSet.Notes {ρ : Type} (changes : ChangeSet) (reference : ρ → Result Json) (m : Member) :
    Value ρ → Value ρ → Prop
  | .scalar live, .scalar prior =>
      changes.get? m.wire = if live.same prior then none else some live.toJson
  | .one live, .one prior =>
      ∃ a b, Record.referenceOf? reference live = .ok a ∧
        Record.referenceOf? reference prior = .ok b ∧
        changes.get? m.wire = if sameReference a b then none else some (a.getD .null)
  | _, _ => True

theorem ChangeSet.Notes.congr {ρ : Type} {changes changes' : ChangeSet}
    {reference : ρ → Result Json} {m : Member} {v w : Value ρ}
    (hget : changes'.get? m.wire = changes.get? m.wire) (h : changes.Notes reference m v w) :
    changes'.Notes reference m v w := by
  cases v <;> cases w <;> simp_all [ChangeSet.Notes]

namespace Record

variable {ρ : Type} {reference : ρ → Result Json} {changes changes' : ChangeSet}

/-- One member is compared: it says what it has to say, under its own name only, and nothing when it
is a relation to many. -/
theorem diffMembers_cons {m : Member} {ms : List Member} {v w : Value ρ} {vs ws : List (Value ρ)}
    (h : diffMembers reference (m :: ms) (v :: vs) (w :: ws) changes = .ok changes') :
    ∃ next, diffMembers reference ms vs ws next = .ok changes' ∧
      (∀ wire, m.wire ≠ wire → next.get? wire = changes.get? wire) ∧
      (changes.get? m.wire = none → next.Notes reference m v w) ∧
      (∀ related, v = .many related → next = changes) := by
  cases v with
  | scalar live =>
    cases w with
    | scalar prior =>
      refine ⟨changes.track m.wire live prior, h, fun wire hne => ?_, fun hnone => ?_, nofun⟩
      · unfold ChangeSet.track
        split
        · rfl
        · exact ChangeSet.get?_insert_of_ne hne _ _
      · show (changes.track m.wire live prior).get? m.wire = _
        unfold ChangeSet.track
        split <;> simp [*]
    | _ => exact ⟨changes, h, fun _ _ => rfl, fun _ => trivial, nofun⟩
  | one live =>
    cases w with
    | one prior =>
      obtain ⟨a, ha, h⟩ := Result.bind_eq_ok.1 h
      obtain ⟨b, hb, h⟩ := Result.bind_eq_ok.1 h
      refine ⟨changes.trackReference m.wire a b, h, fun wire hne => ?_, fun hnone => ?_, nofun⟩
      · unfold ChangeSet.trackReference
        split
        · rfl
        · exact ChangeSet.get?_insert_of_ne hne _ _
      · refine ⟨a, b, ha, hb, ?_⟩
        unfold ChangeSet.trackReference
        split <;> simp [*]
    | _ => exact ⟨changes, h, fun _ _ => rfl, fun _ => trivial, nofun⟩
  | many live => exact ⟨changes, by cases w <;> exact h, fun _ _ => rfl, fun _ => by
      cases w <;> trivial, fun _ _ => rfl⟩

/-- Nothing is said under a name that no member has but relations to many. -/
theorem get?_diffMembers_of_many {ms : List Member} {vs ws : List (Value ρ)} {wire : String}
    (h : diffMembers reference ms vs ws changes = .ok changes')
    (hmany : ∀ m v, (m, v) ∈ ms.zip vs → m.wire = wire → ∃ related, v = .many related) :
    changes'.get? wire = changes.get? wire := by
  induction ms generalizing vs ws changes with
  | nil =>
    cases h
    rfl
  | cons m ms ih =>
    cases vs with
    | nil =>
      cases h
      rfl
    | cons v vs =>
      cases ws with
      | nil =>
        cases h
        rfl
      | cons w ws =>
        obtain ⟨next, hnext, hother, -, hskips⟩ := diffMembers_cons h
        rw [ih hnext fun m' v' hm' => hmany m' v' (List.mem_cons_of_mem _ hm')]
        by_cases hwire : m.wire = wire
        · obtain ⟨related, hv⟩ := hmany m v List.mem_cons_self hwire
          rw [hskips related hv]
        · exact hother wire hwire

/-- Nothing is said under other names than those of the members. -/
theorem get?_diffMembers {ms : List Member} {vs ws : List (Value ρ)}
    (h : diffMembers reference ms vs ws changes = .ok changes') {wire : String}
    (hwire : wire ∉ ms.map Member.wire) : changes'.get? wire = changes.get? wire :=
  get?_diffMembers_of_many h fun _ _ hm hmw =>
    absurd (List.mem_map_of_mem (List.of_mem_zip hm).1) (hmw ▸ hwire)

/-- Each member of a comparison says what it has to say. -/
theorem diffMembers_notes {ms : List Member} {vs ws : List (Value ρ)}
    (h : diffMembers reference ms vs ws changes = .ok changes')
    (hnodup : (ms.map Member.wire).Nodup) (hnone : ∀ m ∈ ms, changes.get? m.wire = none) :
    ∀ m v w, (m, v, w) ∈ ms.zip (vs.zip ws) → changes'.Notes reference m v w := by
  induction ms generalizing vs ws changes with
  | nil => simp
  | cons m₀ ms ih =>
    cases vs with
    | nil => simp
    | cons v₀ vs =>
      cases ws with
      | nil => simp
      | cons w₀ ws =>
        obtain ⟨next, hnext, hother, hnotes, -⟩ := diffMembers_cons h
        rw [List.map_cons, List.nodup_cons] at hnodup
        intro m v w hmem
        rw [List.zip_cons_cons, List.zip_cons_cons, List.mem_cons] at hmem
        rcases hmem with heq | hmem
        · cases heq
          exact (hnotes (hnone m₀ List.mem_cons_self)).congr (get?_diffMembers hnext hnodup.1)
        · refine ih hnext hnodup.2 (fun m' hm' => ?_) m v w hmem
          have hne : m₀.wire ≠ m'.wire := fun he =>
            hnodup.1 (he ▸ List.mem_map_of_mem hm')
          rw [hother _ hne, hnone m' (List.mem_cons_of_mem _ hm')]

/-- Before the members are compared nothing is said but of the key. -/
theorem get?_diffKey {live prior : Record ρ} {wire : String} (h : wire ≠ live.schema.keyWire) :
    (diffKey live prior).get? wire = none := by
  unfold diffKey
  split
  · rfl
  · exact ChangeSet.get?_insert_of_ne h.symm _ _

/-- **What a change set says**: of the key, and of each member. -/
theorem diff_notes {live prior : Record ρ} (h : live.diff reference prior = .ok changes)
    (hwires : live.schema.wires.Nodup) :
    (changes.get? live.schema.keyWire =
      if live.key = prior.key then none else some live.key.toJson) ∧
    ∀ m v w, (m, v, w) ∈ live.schema.members.zip (live.values.zip prior.values) →
      changes.Notes reference m v w := by
  rw [Schema.wires, List.nodup_cons] at hwires
  refine ⟨?_, diffMembers_notes h hwires.2 fun m hm => get?_diffKey fun he => hwires.1 ?_⟩
  · rw [get?_diffMembers h hwires.1]
    unfold diffKey
    split <;> simp
  · rw [← he]
    exact List.mem_map_of_mem hm

/-! ## References that stay -/

section Congr

variable {reference' : ρ → Result Json} {ms : List Member} {vs ws : List (Value ρ)}

theorem referenceOf?_congr {related : Option ρ}
    (h : ∀ i, related = some i → reference' i = reference i) :
    referenceOf? reference' related = referenceOf? reference related := by
  cases related with
  | none => rfl
  | some i => rw [referenceOf?, referenceOf?, h i rfl]

/-- A comparison looks at the keys of those related by relations to one, and at no others. -/
theorem diffMembers_congr (hvs : ∀ i, Value.one (some i) ∈ vs → reference' i = reference i)
    (hws : ∀ i, Value.one (some i) ∈ ws → reference' i = reference i) (changes : ChangeSet) :
    diffMembers reference' ms vs ws changes = diffMembers reference ms vs ws changes := by
  induction ms generalizing vs ws changes with
  | nil => rfl
  | cons m ms ih =>
    cases vs with
    | nil => rfl
    | cons v vs =>
      cases ws with
      | nil => rfl
      | cons w ws =>
        have hrest := fun changes => ih (fun i hi => hvs i (List.mem_cons_of_mem _ hi))
          (fun i hi => hws i (List.mem_cons_of_mem _ hi)) changes
        cases v with
        | scalar live => cases w <;> exact hrest _
        | many live => cases w <;> exact hrest _
        | one live =>
          cases w with
          | one prior =>
            have hlive : referenceOf? reference' live = referenceOf? reference live :=
              referenceOf?_congr fun i hi => hvs i (hi ▸ List.mem_cons_self)
            have hprior : referenceOf? reference' prior = referenceOf? reference prior :=
              referenceOf?_congr fun i hi => hws i (hi ▸ List.mem_cons_self)
            simp only [diffMembers, hlive, hprior, hrest]
          | _ => exact hrest _

theorem diff_congr {live prior : Record ρ}
    (hlive : ∀ i, Value.one (some i) ∈ live.values → reference' i = reference i)
    (hprior : ∀ i, Value.one (some i) ∈ prior.values → reference' i = reference i) :
    live.diff reference' prior = live.diff reference prior :=
  diffMembers_congr hlive hprior _

end Congr

/-! ## Nothing changed -/

/-- A record whose scalars are all without NaN. -/
def IsOrdinary (r : Record ρ) : Prop := ∀ x, Value.scalar x ∈ r.values → x.isOrdinary = true

/-- All records that a record is related to have a key to refer to. -/
def Refers (reference : ρ → Result Json) (vs : List (Value ρ)) : Prop :=
  ∀ i, Value.one (some i) ∈ vs → ∃ j, reference i = .ok j

theorem referenceOf?_eq_ok {vs : List (Value ρ)} {related : Option ρ}
    (h : Refers reference vs) (hv : Value.one related ∈ vs) :
    ∃ a, referenceOf? reference related = .ok a := by
  cases related with
  | none => exact ⟨none, rfl⟩
  | some i =>
    obtain ⟨j, hj⟩ := h i hv
    exact ⟨some j, by simp [referenceOf?, hj, Except.map]⟩

theorem sameReference_self (a : Option Json) : ChangeSet.sameReference a a = true := by
  cases a with
  | none => rfl
  | some j => exact j.same_refl

theorem Refers.tail {v : Value ρ} {vs : List (Value ρ)} (h : Refers reference (v :: vs)) :
    Refers reference vs := fun i hi => h i (List.mem_cons_of_mem _ hi)

/-- Members can be compared when all related records have a key to refer to. -/
theorem exists_diffMembers (ms : List Member) {vs ws : List (Value ρ)}
    (hvs : Refers reference vs) (hws : Refers reference ws) (changes : ChangeSet) :
    ∃ changes', diffMembers reference ms vs ws changes = .ok changes' := by
  induction ms generalizing vs ws changes with
  | nil => exact ⟨changes, rfl⟩
  | cons m ms ih =>
    cases vs with
    | nil => exact ⟨changes, rfl⟩
    | cons v vs =>
      cases ws with
      | nil => exact ⟨changes, rfl⟩
      | cons w ws =>
        cases v with
        | scalar live => cases w <;> exact ih hvs.tail hws.tail _
        | many live => cases w <;> exact ih hvs.tail hws.tail _
        | one live =>
          cases w with
          | one prior =>
            obtain ⟨a, ha⟩ := referenceOf?_eq_ok hvs List.mem_cons_self
            obtain ⟨b, hb⟩ := referenceOf?_eq_ok hws List.mem_cons_self
            obtain ⟨changes', h⟩ := ih hvs.tail hws.tail (changes.trackReference m.wire a b)
            refine ⟨changes', Result.bind_eq_ok.2 ⟨a, ha, Result.bind_eq_ok.2 ⟨b, hb, h⟩⟩⟩
          | _ => exact ih hvs.tail hws.tail _

/-- Nothing is noted of members that are compared with themselves. -/
theorem diffMembers_self (ms : List Member) {vs : List (Value ρ)} (hvs : Refers reference vs)
    (hordinary : ∀ x, Value.scalar x ∈ vs → x.isOrdinary = true) (changes : ChangeSet) :
    diffMembers reference ms vs vs changes = .ok changes := by
  induction ms generalizing vs with
  | nil => rfl
  | cons m ms ih =>
    cases vs with
    | nil => rfl
    | cons v vs =>
      have hrest := ih hvs.tail fun x hx => hordinary x (List.mem_cons_of_mem _ hx)
      cases v with
      | scalar x =>
        have hself : x.same x = true := Scalar.same_self (hordinary x List.mem_cons_self)
        simp only [diffMembers, ChangeSet.track, hself, if_true, hrest]
      | many related => exact hrest
      | one related =>
        obtain ⟨a, ha⟩ := referenceOf?_eq_ok hvs List.mem_cons_self
        refine Result.bind_eq_ok.2 ⟨a, ha, Result.bind_eq_ok.2 ⟨a, ha, ?_⟩⟩
        simp only [ChangeSet.trackReference, sameReference_self, if_true, hrest]

theorem exists_diff {live prior : Record ρ} (hlive : Refers reference live.values)
    (hprior : Refers reference prior.values) :
    ∃ changes, live.diff reference prior = .ok changes :=
  exists_diffMembers _ hlive hprior _

/-- **A record does not differ from itself**, unless it holds a NaN. -/
theorem diff_self {r : Record ρ} (hr : Refers reference r.values) (hordinary : r.IsOrdinary) :
    r.diff reference r = .ok {} := by
  unfold diff diffKey
  rw [if_pos rfl]
  exact diffMembers_self _ hr hordinary _

end Record

end ItemClient
