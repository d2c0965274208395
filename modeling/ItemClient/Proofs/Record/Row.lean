import ItemClient.Proofs.Record.Difference

/-!
# Rows

What the remote store holds of a record, as JSON: its key and scalars (`Record.row`) and the keys
of the records it refers to (`Record.references`). A store that takes a change set puts the values
in it in place of those it has (`ChangeSet.overwrite`).

**Advance** (`Record.row_overwrite`). Where the row of `prior` is held and the change set from
`prior` to `live` is taken, the row of `live` is held afterwards. The same goes for references, as
far as those of `prior` are still the ones held (`Record.references_overwrite`).
-/

namespace ItemClient

namespace Value

variable {ρ : Type}

/-- A scalar as JSON. -/
def scalarJson? : Value ρ → Option Json
  | .scalar v => some v.toJson
  | _ => none

/-- What refers to the record that a relation to one leads to; `null` when there is none. -/
def referenceJson? (key : ρ → Json) : Value ρ → Option Json
  | .one related => some (related.elim .null key)
  | _ => none

end Value

/-- Some members with what they hold, by name and in the order of the members. -/
def entriesOf {ρ : Type} (f : Value ρ → Option Json) (ms : List Member) (vs : List (Value ρ)) :
    List (String × Json) :=
  (ms.zip vs).filterMap fun (m, v) => (f v).map (m.wire, ·)

namespace Record

variable {ρ : Type}

/-- The key and the scalars of a record. -/
def row (r : Record ρ) : List (String × Json) :=
  (r.schema.keyWire, r.key.toJson) :: entriesOf Value.scalarJson? r.schema.members r.values

/-- What refers to the records that the relations to one lead to. -/
def references (key : ρ → Json) (r : Record ρ) : List (String × Json) :=
  entriesOf (Value.referenceJson? key) r.schema.members r.values

end Record

/-- Put the values of a change set in place of those that a row has. -/
def ChangeSet.overwrite (changes : ChangeSet) (row : List (String × Json)) :
    List (String × Json) :=
  row.map fun (wire, j) => (wire, (changes.get? wire).getD j)

/-! ## Names -/

section Names

variable {ρ : Type} {f f' : Value ρ → Option Json} {ms : List Member} {vs ws : List (Value ρ)}

/-- Whether a member has an entry depends on its type alone. -/
def Alike (f f' : Value ρ → Option Json) : Prop :=
  ∀ (type : MemberType) (v w : Value ρ),
    type.Holds v → type.Holds w → (f v).isSome = (f' w).isSome

theorem alike_scalarJson? : Alike (@Value.scalarJson? ρ) Value.scalarJson? := by
  intro type v w hv hw
  cases type <;> cases v <;> cases w <;> simp_all [MemberType.Holds, Value.scalarJson?]

theorem alike_referenceJson? (key key' : ρ → Json) :
    Alike (Value.referenceJson? key) (Value.referenceJson? key') := by
  intro type v w hv hw
  cases type <;> cases v <;> cases w <;> simp_all [MemberType.Holds, Value.referenceJson?]

theorem names_entriesOf (hf : Alike f f')
    (hvs : List.Forall₂ (fun m v => m.type.Holds v) ms vs)
    (hws : List.Forall₂ (fun m v => m.type.Holds v) ms ws) :
    (entriesOf f ms vs).map Prod.fst = (entriesOf f' ms ws).map Prod.fst := by
  induction hvs generalizing ws with
  | nil =>
    cases hws
    rfl
  | @cons m v ms vs hv _ ih =>
    cases hws with
    | @cons _ w _ ws hw hws =>
      have hsame := hf m.type v w hv hw
      have hrest := ih hws
      unfold entriesOf at hrest ⊢
      cases hfv : f v <;> cases hfw : f' w <;> simp_all

/-- Names of entries are names of members, in their order. -/
theorem sublist_names_entriesOf (f : Value ρ → Option Json) (ms : List Member)
    (vs : List (Value ρ)) :
    List.Sublist ((entriesOf f ms vs).map Prod.fst) (ms.map Member.wire) := by
  induction ms generalizing vs with
  | nil => exact List.nil_sublist _
  | cons m ms ih =>
    cases vs with
    | nil => exact List.nil_sublist _
    | cons v vs =>
      have hrest := ih vs
      unfold entriesOf at hrest ⊢
      cases hfv : f v with
      | none => simpa [hfv] using hrest.cons m.wire
      | some j => simpa [hfv] using hrest.cons_cons m.wire

end Names

namespace Record

variable {ρ : Type} {r r' : Record ρ}

theorem names_row (hr : r.WellFormed) (hr' : r'.WellFormed) (hschema : r.schema = r'.schema) :
    r.row.map Prod.fst = r'.row.map Prod.fst := by
  unfold row
  rw [List.map_cons, List.map_cons, hschema,
    names_entriesOf alike_scalarJson? (hschema ▸ hr.values) hr'.values]

theorem names_references (key key' : ρ → Json) (hr : r.WellFormed) (hr' : r'.WellFormed)
    (hschema : r.schema = r'.schema) :
    (r.references key).map Prod.fst = (r'.references key').map Prod.fst := by
  unfold references
  rw [hschema, names_entriesOf (alike_referenceJson? key key') (hschema ▸ hr.values) hr'.values]

theorem WellFormed.nodup_row (hr : r.WellFormed) : (r.row.map Prod.fst).Nodup := by
  have hwires := hr.wires
  rw [Schema.wires, List.nodup_cons] at hwires
  have hsub := sublist_names_entriesOf Value.scalarJson? r.schema.members r.values
  unfold row
  rw [List.map_cons, List.nodup_cons]
  exact ⟨fun hmem => hwires.1 (hsub.subset hmem), hwires.2.sublist hsub⟩

theorem WellFormed.nodup_references (key : ρ → Json) (hr : r.WellFormed) :
    ((r.references key).map Prod.fst).Nodup := by
  have hwires := hr.wires
  rw [Schema.wires, List.nodup_cons] at hwires
  exact hwires.2.sublist (sublist_names_entriesOf _ _ _)

end Record

theorem ChangeSet.names_overwrite (changes : ChangeSet) (row : List (String × Json)) :
    (changes.overwrite row).map Prod.fst = row.map Prod.fst := by
  simp [ChangeSet.overwrite, Function.comp_def]

/-! ## Taking a change set -/

section Overwrite

variable {ρ : Type} {f : Value ρ → Option Json} {changes : ChangeSet}

theorem entriesOf_overwrite (hf : Alike f f) {ms : List Member} {vs ws : List (Value ρ)}
    {held : List (String × Json)} (hvs : List.Forall₂ (fun m v => m.type.Holds v) ms vs)
    (hws : List.Forall₂ (fun m v => m.type.Holds v) ms ws)
    (htold : ∀ m v w, (m, v, w) ∈ ms.zip (vs.zip ws) → ∀ a b, f v = some a → f w = some b →
      changes.get? m.wire = none ∧ a.same b = true ∨ changes.get? m.wire = some a)
    (hheld : Json.sameMembers (entriesOf f ms ws) held = true) :
    Json.sameMembers (entriesOf f ms vs) (changes.overwrite held) = true := by
  induction hvs generalizing ws held with
  | nil =>
    cases hws
    cases held with
    | nil => rfl
    | cons _ _ => simp [entriesOf, Json.sameMembers] at hheld
  | @cons m v ms vs hv _ ih =>
    cases hws with
    | @cons _ w _ ws hw hws =>
      have htold' := fun m' v' w' h => htold m' v' w' (List.mem_cons_of_mem _ h)
      have htyped := hf m.type v w hv hw
      cases hfw : f w with
      | none =>
        have hfv : f v = none := by simpa [hfw] using htyped
        have hskipw : entriesOf f (m :: ms) (w :: ws) = entriesOf f ms ws := by
          simp [entriesOf, hfw]
        have hskipv : entriesOf f (m :: ms) (v :: vs) = entriesOf f ms vs := by
          simp [entriesOf, hfv]
        rw [hskipv]
        rw [hskipw] at hheld
        exact ih hws htold' hheld
      | some b =>
        obtain ⟨a, hfv⟩ : ∃ a, f v = some a := Option.isSome_iff_exists.1 (by simp [htyped, hfw])
        have htakew : entriesOf f (m :: ms) (w :: ws) = (m.wire, b) :: entriesOf f ms ws := by
          simp [entriesOf, hfw]
        have htakev : entriesOf f (m :: ms) (v :: vs) = (m.wire, a) :: entriesOf f ms vs := by
          simp [entriesOf, hfv]
        rw [htakew] at hheld
        rw [htakev]
        cases held with
        | nil => simp [Json.sameMembers] at hheld
        | cons entry held =>
          obtain ⟨wire, j⟩ := entry
          simp only [Json.sameMembers, Bool.and_eq_true, decide_eq_true_eq] at hheld
          obtain ⟨⟨rfl, hj⟩, hheld⟩ := hheld
          have hrest := ih hws htold' hheld
          simp only [ChangeSet.overwrite, List.map_cons, Json.sameMembers, Bool.and_eq_true,
            decide_eq_true_eq, true_and]
          refine ⟨?_, hrest⟩
          rcases htold m v w List.mem_cons_self a b hfv hfw with ⟨hnone, hab⟩ | hsome
          · rw [hnone]
            exact Json.same_trans hab hj
          · rw [hsome]
            exact a.same_refl

end Overwrite

namespace Record

variable {ρ : Type} {reference : ρ → Result Json} {key : ρ → Json} {live prior : Record ρ}
  {changes : ChangeSet} {held : List (String × Json)}

/-- **The row of a record is held after its changes are taken.** -/
theorem row_overwrite (hlive : live.WellFormed) (hprior : prior.WellFormed)
    (hschema : prior.schema = live.schema) (h : live.diff reference prior = .ok changes)
    (hheld : Json.sameMembers prior.row held = true) :
    Json.sameMembers live.row (changes.overwrite held) = true := by
  obtain ⟨hkey, hnotes⟩ := diff_notes h hlive.wires
  cases held with
  | nil => simp [row, Json.sameMembers] at hheld
  | cons entry held =>
    obtain ⟨wire, j⟩ := entry
    simp only [row, hschema, Json.sameMembers, Bool.and_eq_true, decide_eq_true_eq] at hheld
    obtain ⟨⟨rfl, hj⟩, hheld⟩ := hheld
    simp only [row, ChangeSet.overwrite, List.map_cons, Json.sameMembers, Bool.and_eq_true,
      decide_eq_true_eq, true_and]
    constructor
    · rw [hkey]
      split
      · rename_i heq
        rw [heq]
        exact hj
      · exact Json.same_refl _
    · refine entriesOf_overwrite alike_scalarJson? hlive.values (hschema ▸ hprior.values) ?_ hheld
      intro m v w hmem a b ha hb
      cases v <;> cases w <;> simp only [Value.scalarJson?, Option.some.injEq, reduceCtorEq] at ha hb
      subst ha hb
      have hsaid := hnotes _ _ _ hmem
      simp only [ChangeSet.Notes] at hsaid
      split at hsaid
      · rename_i hsame
        exact .inl ⟨hsaid, Scalar.toJson_same hsame⟩
      · exact .inr hsaid

/-- What refers to a related record, when it can be read, is its key. -/
theorem referenceOf?_getD (hkey : ∀ i j, reference i = .ok j → key i = j) {related : Option ρ}
    {a : Option Json} (h : referenceOf? reference related = .ok a) :
    a.getD .null = related.elim .null key := by
  cases related with
  | none =>
    cases h
    rfl
  | some i =>
    obtain ⟨j, hj, rfl⟩ := Result.map_eq_ok.1 h
    exact (hkey i j hj).symm

/-- The references of a record are held after its changes are taken, if those of the record
before, as they stand now, were held. -/
theorem references_overwrite (hkey : ∀ i j, reference i = .ok j → key i = j)
    (hlive : live.WellFormed) (hprior : prior.WellFormed)
    (hschema : prior.schema = live.schema) (h : live.diff reference prior = .ok changes)
    (hheld : Json.sameMembers (prior.references key) held = true) :
    Json.sameMembers (live.references key) (changes.overwrite held) = true := by
  obtain ⟨-, hnotes⟩ := diff_notes h hlive.wires
  rw [references, hschema] at hheld
  refine entriesOf_overwrite (alike_referenceJson? key key) hlive.values (hschema ▸ hprior.values) ?_
    hheld
  intro m v w hmem a b ha hb
  cases v <;> cases w <;>
    simp only [Value.referenceJson?, Option.some.injEq, reduceCtorEq] at ha hb
  subst ha hb
  obtain ⟨c, d, hc, hd, hsaid⟩ := hnotes _ _ _ hmem
  rw [← referenceOf?_getD hkey hc, ← referenceOf?_getD hkey hd]
  split at hsaid
  · rename_i hsame
    refine .inl ⟨hsaid, ?_⟩
    cases c <;> cases d <;> simp_all [ChangeSet.sameReference, Json.same]
  · exact .inr hsaid

end Record

end ItemClient
