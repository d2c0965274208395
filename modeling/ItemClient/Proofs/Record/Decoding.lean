import Mathlib.Data.List.Nodup
import ItemClient.Proofs.Record.Difference
import ItemClient.Record.Tree

/-!
# What records are read from

Decoding, one record at a time. A JSON value gives some members of a record under their names
(`Schema.given?`) and maybe its key (`Schema.keyGiven?`), and what it does not give takes defaults
(`Tree.Decodes`). The records that a member leads to are read in the same way, each from a JSON
value of its own that the member's value holds (`MemberType.standing`, `Tree.Decodes.related`).

A record that was read is well formed, and so is all it is related to (`Tree.Decodes.wellFormed`).
-/

namespace ItemClient

/-! ## What is given -/

namespace Schema

/-- What a JSON value gives for the member with a name: an object under the name, an array at the
place of the member. -/
def given? (s : Schema) (j : Json) (wire : String) : Option Json :=
  match j with
  | .object fields => Members.get? wire fields
  | .array items => Members.get? wire (s.wires.zip items)
  | _ => none

/-- The key that a JSON value gives: the key member, or the value itself when it is a bare key. -/
def keyGiven? (s : Schema) (j : Json) : Option Json :=
  match j with
  | .object _ | .array _ => s.given? j s.keyWire
  | _ => some j

/-- The key of the record that is read from a JSON value. Where none is given it is the default
of its kind. -/
def keyOf? (s : Schema) (j : Json) : Option Key :=
  match s.keyGiven? j with
  | some k => Key.ofJson? s.keyKind k
  | none => some (.default s.keyKind)

variable {s : Schema} {m : Member}

/-- Members with names of their own are found by them. -/
theorem member?_of_mem (hwires : s.wires.Nodup) (hm : m ∈ s.members) :
    s.member? m.wire = some m := by
  have hnodup : (s.members.map Member.wire).Nodup := (List.nodup_cons.1 hwires).2
  unfold member?
  cases hfind : s.members.find? (·.wire = m.wire) with
  | none => simpa using List.find?_eq_none.1 hfind m hm
  | some m' =>
    have hwire : m'.wire = m.wire := by simpa using List.find?_some hfind
    rw [List.inj_on_of_nodup_map hnodup (List.mem_of_find?_eq_some hfind) hm hwire]

end Schema

namespace MemberType

/-- The record type that a relation leads to. -/
def target? : MemberType → Option String
  | .scalar _ => none
  | .one target | .many target => some target

/-- The JSON values in place of the records that a member leads to, when the member is given as
`j`. -/
def standing (type : MemberType) (j : Json) : List Json :=
  match type, j with
  | .one _, .null => []
  | .one _, j => [j]
  | .many _, .array items => items
  | _, _ => []

theorem holds_default (type : MemberType) {ρ : Type} : type.Holds (.default type : Value ρ) := by
  cases type <;> trivial

end MemberType

/-- The records that a member leads to. -/
def Value.related {ρ : Type} : Value ρ → List ρ
  | .scalar _ => []
  | .one related => related.toList
  | .many related => related

theorem Value.related_default {ρ : Type} (type : MemberType) :
    (Value.default type : Value ρ).related = [] := by
  cases type <;> rfl

theorem Record.mem_related_iff {ρ : Type} {r : Record ρ} {i : ρ} :
    i ∈ r.related ↔ ∃ v ∈ r.values, i ∈ v.related := by
  simp only [Record.related, List.mem_append, List.mem_filterMap, List.mem_flatMap]
  constructor
  · rintro (⟨v, hv, h⟩ | ⟨v, hv, h⟩) <;>
      cases v <;> simp_all [Value.toOne?, Value.toMany] <;> exact ⟨_, hv, by simp [Value.related, h]⟩
  · rintro ⟨v, hv, h⟩
    cases v with
    | scalar value => cases h
    | one related => exact .inl ⟨_, hv, by simpa [Value.related, Value.toOne?] using h⟩
    | many related => exact .inr ⟨_, hv, h⟩

/-- All record types have names of their own for their members. -/
def Catalog.WellFormed (catalog : Catalog) : Prop := ∀ s ∈ catalog, s.wires.Nodup

theorem Catalog.WellFormed.wires {catalog : Catalog} (h : catalog.WellFormed) {model : String}
    {s : Schema} (hs : catalog.schema? model = some s) : s.wires.Nodup :=
  h s (List.mem_of_find?_eq_some hs)

/-! ## What is read -/

namespace Tree

variable {catalog : Catalog} {s : Schema} {type : MemberType} {j : Json} {t : Tree}
  {v : Value Tree} {fields : List (String × Json)} {items : List Json} {ts : List Tree}

/-- What a member holds that may be given. -/
def readGiven? (catalog : Catalog) (type : MemberType) (given : Option Json) :
    Option (Value Tree) :=
  given.elim (some (.default type)) (readValue? catalog type)

/-- The record at the root of a tree is the one that a JSON value describes. -/
structure Decodes (catalog : Catalog) (s : Schema) (j : Json) (t : Tree) : Prop where
  schema : t.record.schema = s
  key : s.keyOf? j = some t.record.key
  values : List.Forall₂ (fun m v => readGiven? catalog m.type (s.given? j m.wire) = some v)
    s.members t.record.values

/-- Among the members that were read a declared one is found exactly when it was given. -/
theorem get?_readMembers? {given : Members (Value Tree)} {m : Member}
    (h : readMembers? catalog s fields = some given) (hm : s.member? m.wire = some m) :
    readGiven? catalog m.type (Members.get? m.wire fields) =
      some ((given.get? m.wire).getD (.default m.type)) := by
  induction fields generalizing given with
  | nil =>
    cases h
    rfl
  | cons entry rest ih =>
    obtain ⟨name, j⟩ := entry
    rw [readMembers?] at h
    cases hname : s.member? name with
    | none =>
      have hne : name ≠ m.wire := by
        rintro rfl
        cases hname.symm.trans hm
      simp only [hname] at h
      rw [Members.get?, if_neg hne]
      exact ih h
    | some m' =>
      simp only [hname, Option.bind_eq_bind, Option.bind_eq_some_iff, Option.pure_def,
        Option.some.injEq] at h
      obtain ⟨v, hv, given', hgiven', rfl⟩ := h
      by_cases hwire : name = m.wire
      · subst hwire
        obtain rfl : m' = m := Option.some.inj (hname.symm.trans hm)
        simpa [Members.get?, readGiven?] using hv
      · simpa [Members.get?, hwire] using ih hgiven'

theorem ofFields?_eq_some (h : ofFields? catalog s fields = some t) :
    ∃ key given, readKey? s fields = some key ∧ readMembers? catalog s fields = some given ∧
      t = assemble s key given := by
  simp only [ofFields?, Option.bind_eq_bind, Option.bind_eq_some_iff, Option.pure_def,
    Option.some.injEq] at h
  obtain ⟨key, hkey, given, hgiven, rfl⟩ := h
  exact ⟨key, given, hkey, hgiven, rfl⟩

/-- A record that is read from named values is what `j` describes, if `j` gives these values. -/
theorem decodes_of_ofFields? (hwires : s.wires.Nodup)
    (hkeyGiven : s.keyGiven? j = Members.get? s.keyWire fields)
    (hgiven : ∀ wire, s.given? j wire = Members.get? wire fields)
    (h : ofFields? catalog s fields = some t) : Decodes catalog s j t := by
  obtain ⟨key, given, hkey, hmembers, rfl⟩ := ofFields?_eq_some h
  refine ⟨rfl, ?_, ?_⟩
  · unfold Schema.keyOf?
    rw [hkeyGiven]
    exact hkey
  · refine List.forall₂_map_right_iff.2 (List.forall₂_same.2 fun m hm => ?_)
    rw [hgiven]
    exact get?_readMembers? hmembers (Schema.member?_of_mem hwires hm)

/-- **What a row is read from.** -/
theorem decodes_of_ofJson? (hwires : s.wires.Nodup) (h : ofJson? catalog s j = some t) :
    Decodes catalog s j t := by
  cases j with
  | object fields => exact decodes_of_ofFields? hwires rfl (fun _ => rfl) h
  | array items =>
    simp only [ofJson?] at h
    split at h
    · exact decodes_of_ofFields? hwires rfl (fun _ => rfl) h
    · cases h
  | _ => cases h

/-- **What a related record is read from.** -/
theorem decodes_of_ofRelation? (hwires : s.wires.Nodup) (h : ofRelation? catalog s j = some t) :
    Decodes catalog s j t := by
  cases j with
  | object fields => exact decodes_of_ofFields? hwires rfl (fun _ => rfl) h
  | array items =>
    -- An array is no bare key.
    obtain ⟨key, hkey, -⟩ := Option.map_eq_some_iff.1 h
    cases hkind : s.keyKind <;> simp [hkind, Key.ofJson?, Long.ofJson?] at hkey
  | _ =>
    obtain ⟨key, hkey, rfl⟩ := Option.map_eq_some_iff.1 h
    exact ⟨rfl, hkey, List.forall₂_map_right_iff.2 (List.forall₂_same.2 fun m _ => rfl)⟩

theorem readRelated?_eq_some (h : readRelated? catalog s items = some ts) :
    List.Forall₂ (fun j t => ofRelation? catalog s j = some t) items ts := by
  induction items generalizing ts with
  | nil =>
    cases h
    exact .nil
  | cons j rest ih =>
    cases j with
    | object fields =>
      simp only [readRelated?, Option.bind_eq_bind, Option.bind_eq_some_iff, Option.pure_def,
        Option.some.injEq] at h
      obtain ⟨key, hkey, given, hgiven, ts', hts', rfl⟩ := h
      exact .cons (by simp [ofRelation?, ofFields?, hkey, hgiven]) (ih hts')
    | _ =>
      simp only [readRelated?, Option.bind_eq_bind, Option.bind_eq_some_iff, Option.pure_def,
        Option.some.injEq] at h
      obtain ⟨t, ht, ts', hts', rfl⟩ := h
      exact .cons ht (ih hts')

/-- The records that a member leads to were read from the JSON values in their places. -/
def StandFor (catalog : Catalog) (type : MemberType) (js : List Json) (ts : List Tree) : Prop :=
  ts = [] ∨ ∃ target s, type.target? = some target ∧ catalog.schema? target = some s ∧
    List.Forall₂ (fun j t => ofRelation? catalog s j = some t) js ts

/-- **What a member is read from.** -/
theorem readValue?_eq_some (h : readValue? catalog type j = some v) :
    type.Holds v ∧ StandFor catalog type (type.standing j) v.related := by
  cases type with
  | scalar kind =>
    simp only [readValue?, Option.map_eq_some_iff] at h
    obtain ⟨a, -, rfl⟩ := h
    exact ⟨trivial, .inl rfl⟩
  | one target =>
    simp only [readValue?, Option.bind_eq_bind, Option.bind_eq_some_iff] at h
    obtain ⟨s, hs, h⟩ := h
    cases j with
    | null =>
      cases h
      exact ⟨trivial, .inl rfl⟩
    | object fields =>
      simp only [Option.bind_eq_some_iff, Option.pure_def, Option.some.injEq] at h
      obtain ⟨key, hkey, given, hgiven, rfl⟩ := h
      have ht : ofRelation? catalog s (.object fields) = some (assemble s key given) := by
        simp [ofRelation?, ofFields?, hkey, hgiven]
      exact ⟨trivial, .inr ⟨target, s, rfl, hs, .cons ht .nil⟩⟩
    | _ =>
      simp only [Option.bind_eq_some_iff, Option.pure_def, Option.some.injEq] at h
      obtain ⟨t, ht, rfl⟩ := h
      exact ⟨trivial, .inr ⟨target, s, rfl, hs, .cons ht .nil⟩⟩
  | many target =>
    simp only [readValue?, Option.bind_eq_bind, Option.bind_eq_some_iff] at h
    obtain ⟨s, hs, h⟩ := h
    cases j with
    | array items =>
      simp only [Option.bind_eq_some_iff, Option.pure_def, Option.some.injEq] at h
      obtain ⟨ts, hts, rfl⟩ := h
      exact ⟨trivial, .inr ⟨target, s, rfl, hs, readRelated?_eq_some hts⟩⟩
    | _ => cases h

/-- **What a member is read from that may be given.** -/
theorem readGiven?_eq_some {given : Option Json} (h : readGiven? catalog type given = some v) :
    type.Holds v ∧ StandFor catalog type (given.toList.flatMap type.standing) v.related := by
  cases given with
  | none =>
    cases h
    exact ⟨type.holds_default, .inl (Value.related_default type)⟩
  | some j =>
    rw [Option.toList_some, List.flatMap_singleton]
    exact readValue?_eq_some h

/-- A record that was read holds values of the declared types. -/
theorem Decodes.holds (h : Decodes catalog s j t) :
    List.Forall₂ (fun m v => m.type.Holds v) s.members t.record.values :=
  h.values.imp fun _ _ hv => (readGiven?_eq_some hv).1

/-! ## Well-formed trees -/

/-- The record at the root is well formed, and so is all it is related to. -/
inductive WellFormed : Tree → Prop
  | node {t : Tree} : t.record.WellFormed → (∀ t' ∈ t.record.related, WellFormed t') → WellFormed t

theorem sizeOf_lt_of_mem_related {t' : Tree} (h : t' ∈ t.record.related) : sizeOf t' < sizeOf t := by
  obtain ⟨schema, key, vs⟩ := t
  obtain ⟨v, hv, ht'⟩ := Record.mem_related_iff.1 h
  have hlt : sizeOf v < sizeOf vs := List.sizeOf_lt_of_mem hv
  have hle : sizeOf t' < sizeOf v := by
    cases v with
    | scalar value => cases ht'
    | one related =>
      obtain rfl : related = some t' := by simpa [Value.related] using ht'
      simp
      omega
    | many related =>
      have hmem : sizeOf t' < sizeOf related := List.sizeOf_lt_of_mem ht'
      simp
      omega
  simp
  omega

/-- A record that was read is related to records that were read. -/
theorem Decodes.exists_of_mem_related (hcatalog : catalog.WellFormed) (h : Decodes catalog s j t)
    {t' : Tree} (ht' : t' ∈ t.record.related) : ∃ s' j', s'.wires.Nodup ∧ Decodes catalog s' j' t' := by
  obtain ⟨v, hv, ht'⟩ := Record.mem_related_iff.1 ht'
  obtain ⟨m, -, hm⟩ := h.values.exists_left hv
  rcases (readGiven?_eq_some hm).2 with hnone | ⟨target, s', -, hs', hread⟩
  · rw [hnone] at ht'
    cases ht'
  · obtain ⟨j', -, hj'⟩ := hread.exists_left ht'
    have hwires := hcatalog.wires hs'
    exact ⟨s', j', hwires, decodes_of_ofRelation? hwires hj'⟩

/-- **What was read is well formed.** -/
theorem Decodes.wellFormed {s : Schema} {j : Json} {t : Tree} (hcatalog : catalog.WellFormed)
    (hwires : s.wires.Nodup) (h : Decodes catalog s j t) : t.WellFormed := by
  refine .node ⟨h.schema ▸ hwires, h.schema ▸ h.holds⟩ fun t' ht' => ?_
  obtain ⟨s', j', hwires', h'⟩ := h.exists_of_mem_related hcatalog ht'
  exact h'.wellFormed hcatalog hwires'
termination_by sizeOf t
decreasing_by exact sizeOf_lt_of_mem_related ht'

end Tree

end ItemClient
