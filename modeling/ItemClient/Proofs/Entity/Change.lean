import Mathlib.Data.List.Nodup
import Mathlib.Data.Nat.Basic
import Mathlib.Logic.Relation
import Mathlib.Order.Basic
import ItemClient.Entity.Edit
import ItemClient.Proofs.Record.Difference

/-!
# How the live entities change

A program makes entities, edits them in place and may break them (`Heap.Change`); it never takes
one away or turns one into another type. So the heap only grows and the type at an address stays
(`Heap.Changes.schema?_eq`), and records stay well formed with relations that lead to entities
(`Heap.WellFormed`), because an edit is made only where it fits.
-/

namespace ItemClient

namespace Heap

/-- The record at an address, whether or not it can be read. -/
def record? (heap : Heap) (id : EntityId) : Option (Record EntityId) :=
  heap.cells[id]?.map Cell.record

/-- All that a record is related to are entities. -/
def Closes (heap : Heap) (r : Record EntityId) : Prop := ∀ id ∈ r.related, id < heap.size

/-- All records are well formed, and relations lead to entities. -/
def WellFormed (heap : Heap) : Prop :=
  ∀ id r, heap.record? id = some r → r.WellFormed ∧ heap.Closes r

/-- One change of the live entities by the program that holds them. -/
inductive Change (heap : Heap) : Heap → Prop
  | create {r : Record EntityId} :
      r.WellFormed → heap.Closes r → Change heap (heap.add r).1
  | edit {id : EntityId} {e : Edit} {heap' : Heap} :
      heap.edit id e = .ok heap' → Change heap heap'
  | poison (id : EntityId) : Change heap (heap.poison id)

/-- Any number of changes, one after the other. -/
def Changes : Heap → Heap → Prop := Relation.ReflTransGen Change

end Heap

/-! ## Members by name -/

namespace Record

variable {ρ : Type} {r : Record ρ} {wire : String} {v : Value ρ}

theorem mem_related {i : ρ} :
    i ∈ r.related ↔ ∃ v ∈ r.values, v.toOne? = some i ∨ i ∈ v.toMany := by
  simp only [related, List.mem_append, List.mem_filterMap, List.mem_flatMap]
  constructor
  · rintro (⟨v, hv, h⟩ | ⟨v, hv, h⟩)
    · exact ⟨v, hv, .inl h⟩
    · exact ⟨v, hv, .inr h⟩
  · rintro ⟨v, hv, h | h⟩
    · exact .inl ⟨v, hv, h⟩
    · exact .inr ⟨v, hv, h⟩

/-- A value that was put in is the new one or one that was there. -/
theorem mem_values_setValue {w : Value ρ} (hw : w ∈ (r.setValue wire v).values) :
    w = v ∨ w ∈ r.values := by
  obtain ⟨⟨m, x⟩, hmem, rfl⟩ := List.mem_map.1 hw
  dsimp only
  split
  · exact .inl rfl
  · exact .inr (List.of_mem_zip hmem).2

/-- The value under a name is one of the values. -/
theorem mem_values_of_value? {w : Value ρ} (h : r.value? wire = some w) : w ∈ r.values := by
  obtain ⟨⟨m, x⟩, hfind, rfl⟩ := Option.map_eq_some_iff.1 h
  exact (List.of_mem_zip (List.mem_of_find?_eq_some hfind)).2

theorem zip_map_zip (ms : List Member) (vs : List (Value ρ)) (f : Member × Value ρ → Value ρ) :
    ms.zip ((ms.zip vs).map f) = (ms.zip vs).map fun x => (x.1, f x) := by
  induction ms generalizing vs with
  | nil => rfl
  | cons m ms ih =>
    cases vs with
    | nil => rfl
    | cons v vs => rw [List.zip_cons_cons, List.map_cons, List.map_cons, List.zip_cons_cons, ih]

/-- A value is put in under its name alone. -/
theorem value?_setValue (r : Record ρ) (name : String) (v : Value ρ) (wire : String) :
    (r.setValue name v).value? wire =
      (r.value? wire).map fun w => if wire = name then v else w := by
  unfold setValue value?
  rw [zip_map_zip, List.find?_map, Option.map_map, Option.map_map]
  cases hfind : (r.schema.members.zip r.values).find? (·.1.wire = wire) with
  | none => simp [Function.comp_def, hfind]
  | some x =>
    have hwire : x.1.wire = wire := by simpa using List.find?_some hfind
    simp [Function.comp_def, hfind, hwire]

/-- Of entries with names of their own, one that is looked for is the one of its name. -/
theorem find?_zip_eq_some_iff {ms : List Member} {vs : List (Value ρ)}
    (hnodup : (ms.map Member.wire).Nodup) {m : Member} :
    (ms.zip vs).find? (·.1.wire = wire) = some (m, v) ↔ (m, v) ∈ ms.zip vs ∧ m.wire = wire := by
  induction ms generalizing vs with
  | nil => simp
  | cons m₀ ms ih =>
    cases vs with
    | nil => simp
    | cons v₀ vs =>
      rw [List.map_cons, List.nodup_cons] at hnodup
      rw [List.zip_cons_cons, List.mem_cons]
      by_cases h₀ : m₀.wire = wire
      · rw [List.find?_cons_of_pos (by simpa using h₀), Option.some.injEq]
        constructor
        · rintro ⟨⟩
          exact ⟨.inl rfl, h₀⟩
        · rintro ⟨heq | hmem, hm⟩
          · exact heq.symm
          · -- A later member has another name.
            have hlater : m.wire ∈ ms.map Member.wire :=
              List.mem_map_of_mem (List.of_mem_zip hmem).1
            exact absurd (h₀.trans hm.symm ▸ hlater) hnodup.1
      · rw [List.find?_cons_of_neg (by simpa using h₀), ih hnodup.2]
        constructor
        · exact fun ⟨hmem, hm⟩ => ⟨.inr hmem, hm⟩
        · rintro ⟨heq | hmem, hm⟩
          · cases heq
            exact absurd hm h₀
          · exact ⟨hmem, hm⟩

/-- The value under a name is the one of the member with that name. -/
theorem WellFormed.value?_eq_some_iff (h : r.WellFormed) :
    r.value? wire = some v ↔ ∃ m, (m, v) ∈ r.schema.members.zip r.values ∧ m.wire = wire := by
  have hnodup : (r.schema.members.map Member.wire).Nodup := (List.nodup_cons.1 h.wires).2
  unfold value?
  rw [Option.map_eq_some_iff]
  constructor
  · rintro ⟨⟨m, w⟩, hfind, rfl⟩
    exact ⟨m, (find?_zip_eq_some_iff hnodup).1 hfind⟩
  · rintro ⟨m, hm⟩
    exact ⟨(m, v), (find?_zip_eq_some_iff hnodup).2 hm, rfl⟩

/-- Two records of one type have values for the same members. -/
theorem exists_zip_zip {ms : List Member} {vs ws : List (Value ρ)}
    (hvs : List.Forall₂ (fun m v => m.type.Holds v) ms vs)
    (hws : List.Forall₂ (fun m v => m.type.Holds v) ms ws) {m : Member}
    (hm : (m, v) ∈ ms.zip vs) :
    ∃ w, (m, v, w) ∈ ms.zip (vs.zip ws) ∧ (m, w) ∈ ms.zip ws ∧ m.type.Holds v ∧
      m.type.Holds w := by
  induction hvs generalizing ws with
  | nil => cases hm
  | @cons m₀ v₀ ms vs hv _ ih =>
    cases hws with
    | @cons _ w₀ _ ws hw hws =>
      rw [List.zip_cons_cons, List.mem_cons] at hm
      rcases hm with heq | hm
      · cases heq
        exact ⟨w₀, List.mem_cons_self, List.mem_cons_self, hv, hw⟩
      · obtain ⟨w, hzip, hmw, hholds⟩ := ih hws hm
        exact ⟨w, List.mem_cons_of_mem _ hzip, List.mem_cons_of_mem _ hmw, hholds⟩

/-- Each value of a record stands under the name of a member. -/
theorem WellFormed.exists_value?_of_mem (h : r.WellFormed) (hv : v ∈ r.values) :
    ∃ wire, r.value? wire = some v := by
  obtain ⟨m, hm, -⟩ := h.values.exists_left hv
  exact ⟨m.wire, h.value?_eq_some_iff.2 ⟨m, hm, rfl⟩⟩

/-- The key has a name of its own. -/
theorem WellFormed.value?_keyWire (h : r.WellFormed) : r.value? r.schema.keyWire = none := by
  cases hv : r.value? r.schema.keyWire with
  | none => rfl
  | some v =>
    obtain ⟨m, hm, hwire⟩ := h.value?_eq_some_iff.1 hv
    have hmem : m.wire ∈ r.schema.members.map Member.wire :=
      List.mem_map_of_mem (List.of_mem_zip hm).1
    exact absurd (hwire ▸ hmem) (List.nodup_cons.1 h.wires).1

/-! ### What a change set says, by name -/

section Said

/-- What a comparison notes under a name: what is there now, if it was not the same before. `key`
gives the keys of related records. -/
def noted? (key : ρ → Json) (live prior : Record ρ) (wire : String) : Option Json :=
  if wire = live.schema.keyWire then
    if live.key = prior.key then none else some live.key.toJson
  else
    match live.value? wire, prior.value? wire with
    | some (.scalar now), some (.scalar before) =>
        if now.same before then none else some now.toJson
    | some (.one now), some (.one before) =>
        if ChangeSet.sameReference (now.map key) (before.map key) then none
        else some ((now.map key).getD .null)
    | _, _ => none

variable {reference : ρ → Result Json} {key : ρ → Json} {live prior : Record ρ}
  {changes : ChangeSet}

/-- What is noted depends on the member alone, and on the keys that it refers to. -/
theorem noted?_congr {live' prior' : Record ρ} {key' : ρ → Json}
    (hschema : live'.schema = live.schema)
    (hkey : wire = live.schema.keyWire → live'.key = live.key ∧ prior'.key = prior.key)
    (hlive : live'.value? wire = live.value? wire) (hprior : prior'.value? wire = prior.value? wire)
    (hnow : ∀ i, live.value? wire = some (.one (some i)) → key' i = key i)
    (hbefore : ∀ i, prior.value? wire = some (.one (some i)) → key' i = key i) :
    live'.noted? key' prior' wire = live.noted? key prior wire := by
  have hmap : ∀ {r : Record ρ} {related : Option ρ},
      (∀ i, r.value? wire = some (.one (some i)) → key' i = key i) →
      r.value? wire = some (.one related) → related.map key' = related.map key := by
    intro r related h hr
    cases related with
    | none => rfl
    | some i => rw [Option.map_some, Option.map_some, h i hr]
  unfold noted?
  rw [hschema, hlive, hprior]
  split
  · rw [(hkey ‹_›).1, (hkey ‹_›).2]
  · split
    · rfl
    · rw [hmap hnow ‹_›, hmap hbefore ‹_›]
    · rfl

theorem referenceOf?_eq_map (hkeys : ∀ i j, reference i = .ok j → key i = j) {related : Option ρ}
    {a : Option Json} (h : referenceOf? reference related = .ok a) : a = related.map key := by
  cases related with
  | none =>
    cases h
    rfl
  | some i =>
    obtain ⟨j, hj, rfl⟩ := Result.map_eq_ok.1 h
    rw [Option.map_some, hkeys i j hj]

/-- **What a change set says under a name.** -/
theorem get?_diff (hlive : live.WellFormed) (hprior : prior.WellFormed)
    (hschema : prior.schema = live.schema) (h : live.diff reference prior = .ok changes)
    (hkeys : ∀ i j, reference i = .ok j → key i = j) (wire : String) :
    changes.get? wire = live.noted? key prior wire := by
  unfold noted?
  split
  · rename_i hwire
    rw [hwire, (diff_notes h hlive.wires).1]
  rename_i hwire
  -- Nothing is noted where there is no member, or a relation to many.
  have hquiet : (∀ v, live.value? wire = some v → ∃ related, v = .many related) →
      changes.get? wire = none := fun hmany =>
    (get?_diffMembers_of_many h fun m v hm hmw =>
      hmany v (hlive.value?_eq_some_iff.2 ⟨m, hm, hmw⟩)).trans (get?_diffKey hwire)
  cases hv : live.value? wire with
  | none => exact hquiet fun v h => by simp [hv] at h
  | some v =>
    obtain ⟨m, hm, rfl⟩ := hlive.value?_eq_some_iff.1 hv
    obtain ⟨w, hzip, hmw, hvHolds, hwHolds⟩ :=
      exists_zip_zip hlive.values (hschema ▸ hprior.values) hm
    have hw : prior.value? m.wire = some w :=
      hprior.value?_eq_some_iff.2 ⟨m, hschema ▸ hmw, rfl⟩
    have hnotes := (diff_notes h hlive.wires).2 m v w hzip
    rw [hw]
    cases v with
    | many related => exact hquiet fun v h => ⟨related, Option.some.inj (h.symm.trans hv)⟩
    | scalar now =>
      obtain ⟨before, rfl⟩ : ∃ before, w = .scalar before := by
        cases htype : m.type <;> cases w <;> simp_all [MemberType.Holds]
      exact hnotes
    | one now =>
      obtain ⟨before, rfl⟩ : ∃ before, w = .one before := by
        cases htype : m.type <;> cases w <;> simp_all [MemberType.Holds]
      obtain ⟨a, b, ha, hb, hget⟩ := hnotes
      rw [hget, referenceOf?_eq_map hkeys ha, referenceOf?_eq_map hkeys hb]

end Said

theorem forall₂_zip_map {ms : List Member} {vs : List (Value ρ)}
    (h : List.Forall₂ (fun m v => m.type.Holds v) ms vs)
    (hv : ∀ m ∈ ms, m.wire = wire → m.type.Holds v) :
    List.Forall₂ (fun m v => m.type.Holds v) ms
      ((ms.zip vs).map fun (m, w) => if m.wire = wire then v else w) := by
  induction h with
  | nil => exact .nil
  | @cons m w ms vs hmw _ ih =>
    refine .cons ?_ (ih fun m' hm' => hv m' (List.mem_cons_of_mem _ hm'))
    dsimp only
    split
    · exact hv m List.mem_cons_self ‹_›
    · exact hmw

/-- Putting a value of its type in a member keeps a record well formed. -/
theorem WellFormed.setValue (h : r.WellFormed)
    (hv : ∀ m ∈ r.schema.members, m.wire = wire → m.type.Holds v) :
    (r.setValue wire v).WellFormed where
  wires := h.wires
  values := forall₂_zip_map h.values hv

end Record

namespace Edit

variable {s : Schema} {wire : String} {type : MemberType}

/-- The declared type of a name is the type of every member with that name. -/
theorem type_of_typeOf? (hwires : s.wires.Nodup) (h : typeOf? s wire = some type) :
    ∀ m ∈ s.members, m.wire = wire → m.type = type := by
  obtain ⟨m', hfind, rfl⟩ := Option.map_eq_some_iff.1 h
  have hm' : m' ∈ s.members := List.mem_of_find?_eq_some hfind
  have hwire : m'.wire = wire := by simpa using List.find?_some hfind
  rw [Schema.wires, List.nodup_cons] at hwires
  intro m hm hmw
  rw [List.inj_on_of_nodup_map hwires.2 hm hm' (hmw.trans hwire.symm)]

variable {heap : Heap} {r : Record EntityId} {e : Edit}

theorem schema_apply (r : Record EntityId) (e : Edit) : (e.apply r).schema = r.schema := by
  cases e <;> rfl

theorem lt_size_of_isOf {model : String} {id : EntityId} (h : isOf heap model id = true) :
    id < heap.size := by
  by_contra hge
  have hnone : heap.cells[id]? = none := List.getElem?_eq_none (Nat.le_of_not_lt hge)
  simp [isOf, Heap.schema?, hnone] at h

/-- The relations of a record that had a value put in lead where they led or where it leads. -/
theorem closes_setValue {v : Value EntityId} (h : heap.Closes r)
    (hv : ∀ id, v.toOne? = some id ∨ id ∈ v.toMany → id < heap.size) :
    heap.Closes (r.setValue wire v) := by
  intro id hid
  obtain ⟨w, hw, hlead⟩ := Record.mem_related.1 hid
  rcases Record.mem_values_setValue hw with rfl | hw
  · exact hv id hlead
  · exact h id (Record.mem_related.2 ⟨w, hw, hlead⟩)

/-- Putting a value of the declared type in a member, with relations that lead to entities. -/
theorem setValue_wellFormed {v : Value EntityId} (hr : r.WellFormed) (hcloses : heap.Closes r)
    (htype : typeOf? r.schema wire = some type) (hholds : type.Holds v)
    (hv : ∀ id, v.toOne? = some id ∨ id ∈ v.toMany → id < heap.size) :
    (r.setValue wire v).WellFormed ∧ heap.Closes (r.setValue wire v) := by
  refine ⟨hr.setValue fun m hm hmw => ?_, closes_setValue hcloses hv⟩
  rw [type_of_typeOf? hr.wires htype m hm hmw]
  exact hholds

theorem mem_related_of_mem_manyOf {id : EntityId} (h : id ∈ manyOf r wire) : id ∈ r.related := by
  unfold manyOf at h
  cases hv : r.value? wire with
  | none => simp [hv] at h
  | some v =>
    exact Record.mem_related.2 ⟨v, Record.mem_values_of_value? hv, .inr (by simpa [hv] using h)⟩

/-- **An edit that fits keeps a record well formed and its relations in the heap.** -/
theorem apply_wellFormed (hfits : e.fits heap r.schema = true) (hr : r.WellFormed)
    (hcloses : heap.Closes r) : (e.apply r).WellFormed ∧ heap.Closes (e.apply r) := by
  cases e with
  | key k => exact ⟨⟨hr.wires, hr.values⟩, hcloses⟩
  | scalar wire value =>
    simp only [fits] at hfits
    split at hfits
    · rename_i kind htype
      exact setValue_wellFormed hr hcloses htype trivial (by simp [Value.toOne?, Value.toMany])
    · cases hfits
  | relate wire target =>
    simp only [fits] at hfits
    split at hfits
    · rename_i model htype
      refine setValue_wellFormed hr hcloses htype trivial ?_
      rintro id (hid | hid)
      · obtain rfl : target = some id := hid
        exact lt_size_of_isOf hfits
      · simp [Value.toMany] at hid
    · cases hfits
  | attach wire target =>
    simp only [fits] at hfits
    split at hfits
    · rename_i model htype
      refine setValue_wellFormed hr hcloses htype trivial ?_
      rintro id (hid | hid)
      · simp [Value.toOne?] at hid
      rcases List.mem_append.1 hid with hid | hid
      · exact hcloses id (mem_related_of_mem_manyOf hid)
      · obtain rfl := List.mem_singleton.1 hid
        exact lt_size_of_isOf hfits
    · cases hfits
  | detach wire index =>
    simp only [fits] at hfits
    split at hfits
    · rename_i model htype
      refine setValue_wellFormed hr hcloses htype trivial ?_
      rintro id (hid | hid)
      · simp [Value.toOne?] at hid
      · exact hcloses id (mem_related_of_mem_manyOf (List.mem_of_mem_eraseIdx hid))
    · cases hfits

end Edit

/-! ## Heaps -/

namespace Heap

variable {heap heap' : Heap} {id : EntityId} {r : Record EntityId}

theorem record?_of_read (h : heap.read id = .ok r) : heap.record? id = some r := by
  unfold read at h
  split at h
  · rename_i record hc
    cases h
    simp [record?, hc]
  · cases h

theorem read_of_record? (h : heap.record? id = some r) (hp : heap.isPoisoned id = false) :
    heap.read id = .ok r := by
  obtain ⟨c, hc, rfl⟩ := Option.map_eq_some_iff.1 h
  have hpoisoned : c.poisoned = false := by simpa [isPoisoned, hc] using hp
  obtain ⟨record, poisoned⟩ := c
  subst hpoisoned
  simp [read, hc]

theorem schema?_eq (heap : Heap) (id : EntityId) :
    heap.schema? id = (heap.record? id).map Record.schema := by
  simp [schema?, record?, Function.comp_def]

theorem record?_isSome_iff : (heap.record? id).isSome ↔ id < heap.size := by
  simp [record?, size]

theorem lt_size_of_record? (h : heap.record? id = some r) : id < heap.size :=
  record?_isSome_iff.1 (by simp [h])

/-! ### What each change does to the records -/

theorem size_add (heap : Heap) (r : Record EntityId) : (heap.add r).1.size = heap.size + 1 := by
  simp [add, size]

theorem record?_add (heap : Heap) (r : Record EntityId) (id : EntityId) :
    (heap.add r).1.record? id = if id = heap.size then some r else heap.record? id := by
  unfold add record? size
  rcases Nat.lt_trichotomy id heap.cells.length with hlt | rfl | hgt
  · rw [List.getElem?_append_left hlt, if_neg (Nat.ne_of_lt hlt)]
  · simp
  · rw [if_neg (Nat.ne_of_gt hgt), List.getElem?_eq_none (by simpa using Nat.succ_le_of_lt hgt),
      List.getElem?_eq_none (Nat.le_of_lt hgt)]

theorem size_write (heap : Heap) (id : EntityId) (r : Record EntityId) :
    (heap.write id r).size = heap.size := by
  simp [write, size]

theorem record?_write (heap : Heap) (id other : EntityId) (r : Record EntityId)
    (hid : id < heap.size) :
    (heap.write id r).record? other = if other = id then some r else heap.record? other := by
  unfold write record?
  by_cases h : other = id
  · subst h
    rw [if_pos rfl, List.getElem?_set_self hid, Option.map_some]
  · rw [if_neg h, List.getElem?_set_ne (Ne.symm h)]

theorem size_poison (heap : Heap) (id : EntityId) : (heap.poison id).size = heap.size := by
  simp [poison, size]

theorem record?_poison (heap : Heap) (id other : EntityId) :
    (heap.poison id).record? other = heap.record? other := by
  unfold poison record?
  rw [List.getElem?_modify]
  cases heap.cells[other]? with
  | none => rfl
  | some c => by_cases h : id = other <;> simp [h]

theorem isPoisoned_write (heap : Heap) (id other : EntityId) (r : Record EntityId)
    (h : heap.isPoisoned other = false) : (heap.write id r).isPoisoned other = false := by
  unfold isPoisoned write at *
  rw [List.getElem?_set]
  split
  · split <;> rfl
  · exact h

/-- Where something was read, what is read after it was replaced. -/
theorem read_write (hread : heap.read id = .ok r) (r' : Record EntityId) (other : EntityId) :
    (heap.write id r').read other = if other = id then .ok r' else heap.read other := by
  have hid : id < heap.cells.length := lt_size_of_record? (record?_of_read hread)
  unfold read write
  by_cases h : other = id
  · subst h
    rw [if_pos rfl, List.getElem?_set_self hid]
  · rw [if_neg h, List.getElem?_set_ne (Ne.symm h)]

/-- Putting back what was read changes nothing. -/
theorem write_of_read (hread : heap.read id = .ok r) : heap.write id r = heap := by
  obtain ⟨cells⟩ := heap
  unfold read at hread
  split at hread
  · rename_i record hcell
    cases hread
    obtain ⟨hlt, hget⟩ := List.getElem?_eq_some_iff.1 hcell
    unfold write
    rw [← hget, List.set_getElem_self]
  · cases hread

theorem schema?_write (hread : heap.read id = .ok r) {r' : Record EntityId}
    (hschema : r'.schema = r.schema) (other : EntityId) :
    (heap.write id r').schema? other = heap.schema? other := by
  rw [schema?_eq, schema?_eq, record?_write _ _ _ _ (lt_size_of_record? (record?_of_read hread))]
  split
  · rename_i h
    rw [h, record?_of_read hread, Option.map_some, Option.map_some, hschema]
  · rfl

/-- The keys that are referred to are the same when the entity has kept its own. -/
theorem reference_write (hread : heap.read id = .ok r) {r' : Record EntityId} {other : EntityId}
    (hkey : other = id → r'.key = r.key) :
    (heap.write id r').reference other = heap.reference other := by
  rw [reference, reference, read_write hread]
  split
  · rename_i h
    rw [h, hread]
    exact congrArg Except.ok (congrArg Key.toJson (hkey h))
  · rfl

/-- An edit that can be made either changes nothing or fits and changes one record. -/
theorem edit_eq_ok {e : Edit} (h : heap.edit id e = .ok heap') :
    heap' = heap ∨ ∃ r, heap.read id = .ok r ∧ e.fits heap r.schema = true ∧
      heap' = heap.write id (e.apply r) := by
  obtain ⟨r, hr, h⟩ := Result.map_eq_ok.1 h
  split at h
  · exact .inr ⟨r, hr, ‹_›, h.symm⟩
  · exact .inl h.symm

/-! ### What all changes keep -/

theorem Closes.mono (hsize : heap.size ≤ heap'.size) (h : heap.Closes r) : heap'.Closes r :=
  fun id hid => Nat.lt_of_lt_of_le (h id hid) hsize

/-- What a change keeps: entities stay, with their types, and records stay well formed. -/
structure Keeps (heap heap' : Heap) : Prop where
  size : heap.size ≤ heap'.size
  schema? : ∀ id, id < heap.size → heap'.schema? id = heap.schema? id
  wellFormed : heap.WellFormed → heap'.WellFormed

theorem Change.keeps (h : Change heap heap') : heap.Keeps heap' := by
  cases h with
  | @create r hr hcloses =>
    refine ⟨by rw [size_add]; omega, fun id hid => ?_, fun hw id r' h => ?_⟩
    · rw [schema?_eq, schema?_eq, record?_add, if_neg (Nat.ne_of_lt hid)]
    · rw [record?_add] at h
      have hmono : heap.size ≤ (heap.add r).1.size := by rw [size_add]; omega
      split at h
      · cases h
        exact ⟨hr, hcloses.mono hmono⟩
      · exact ⟨(hw id r' h).1, (hw id r' h).2.mono hmono⟩
  | @edit i e heap' h =>
    rcases edit_eq_ok h with rfl | ⟨r, hr, hfits, rfl⟩
    · exact ⟨le_rfl, fun _ _ => rfl, id⟩
    have hi : i < heap.size := lt_size_of_record? (record?_of_read hr)
    refine ⟨(size_write _ _ _).ge, fun id hid => ?_, fun hw id r' h => ?_⟩
    · rw [schema?_eq, schema?_eq, record?_write _ _ _ _ hi]
      split
      · rename_i heq
        rw [heq, record?_of_read hr, Option.map_some, Option.map_some, Edit.schema_apply]
      · rfl
    · rw [record?_write _ _ _ _ hi] at h
      have hmono : heap.size ≤ (heap.write i (e.apply r)).size := (size_write _ _ _).ge
      split at h
      · cases h
        have hold := hw i r (record?_of_read hr)
        have hnew := Edit.apply_wellFormed hfits hold.1 hold.2
        exact ⟨hnew.1, hnew.2.mono hmono⟩
      · exact ⟨(hw id r' h).1, (hw id r' h).2.mono hmono⟩
  | poison i =>
    refine ⟨(size_poison _ _).ge, fun id _ => ?_, fun hw id r' h => ?_⟩
    · rw [schema?_eq, schema?_eq, record?_poison]
    · rw [record?_poison] at h
      exact ⟨(hw id r' h).1, (hw id r' h).2.mono (size_poison _ _).ge⟩

/-- **What any number of changes keeps.** -/
theorem Changes.keeps (h : Changes heap heap') : heap.Keeps heap' := by
  induction h with
  | refl => exact ⟨le_rfl, fun _ _ => rfl, id⟩
  | tail _ hstep ih =>
    have hkeep := hstep.keeps
    exact ⟨ih.size.trans hkeep.size,
      fun id hid => (hkeep.schema? id (hid.trans_le ih.size)).trans (ih.schema? id hid),
      fun hw => hkeep.wellFormed (ih.wellFormed hw)⟩

end Heap

end ItemClient
