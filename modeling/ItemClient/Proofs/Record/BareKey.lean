import ItemClient.Entity.Heap
import ItemClient.Models
import ItemClient.Proofs.Record.Decoding
import ItemClient.Proofs.Text.Spellings

/-!
# Bare keys

A related record may be given by its key alone. This says the same as an object that holds the key
and nothing else: both readers take the same keys, of whichever kind, and make a record of the key
and defaults (`Tree.ofRelation?_keyOnly`).

A key has two spellings: the segment of a path that addresses its row (`Key.identity`) and the
value that stands for the row in a payload (`Key.toJson`). The second is read back
(`Key.ofJson?_toJson`), and within one kind either of them tells the key, so they tell the same
rows apart (`Key.identity_eq_iff`, `Key.toJson_eq_iff`). Between kinds this is false: the text `1`
and the integer one have one path segment and two payloads.

Main result: `Tree.bareKey_stands`.
-/

namespace ItemClient

/-! ## Spellings of a key -/

namespace Uuid

theorem text_inj {u v : Uuid} (h : u.text = v.text) : u = v := by
  have hread : some u = some v := by rw [← read?_text u, h, read?_text v]
  exact Option.some.inj hread

end Uuid

namespace Json

/-- The sign and the digits of an integer tell it. -/
theorem writeInt_inj {m n : Int} (h : writeInt m = writeInt n) : m = n := by
  have hsign : ∀ {a b : Nat}, '-' :: Nat.toDigits 10 a ≠ Nat.toDigits 10 b := by
    intro a b heq
    have hmem : '-' ∈ Nat.toDigits 10 b := heq ▸ List.mem_cons_self
    exact absurd (Text.isDigit_of_mem_toDigits hmem) (by decide)
  unfold writeInt at h
  by_cases hm : m < 0
  · by_cases hn : n < 0
    · rw [if_pos hm, if_pos hn] at h
      have habs := Text.toDigits_inj (List.append_cancel_left h)
      omega
    · rw [if_pos hm, if_neg hn] at h
      exact absurd h hsign
  · by_cases hn : n < 0
    · rw [if_neg hm, if_pos hn] at h
      exact absurd h.symm hsign
    · rw [if_neg hm, if_neg hn] at h
      have habs := Text.toDigits_inj (List.append_cancel_left h)
      omega

end Json

theorem Long.ofJson?_toJson (n : Long) : ofJson? n.toJson = some n := by
  show ofInt? n.val = some n
  unfold ofInt?
  rw [dif_pos n.inRange]

namespace Key

variable {k k' : Key}

/-- **A key is read from what stands for it in a payload.** -/
theorem ofJson?_toJson (k : Key) : ofJson? k.kind k.toJson = some k := by
  cases k with
  | uuid u =>
    show (Uuid.read? u.text.toList).map uuid = _
    rw [Uuid.read?_text, Option.map_some]
  | text s => rfl
  | integer n =>
    show (Long.ofJson? n.toJson).map integer = _
    rw [Long.ofJson?_toJson, Option.map_some]

theorem toJson_eq_iff (hkind : k.kind = k'.kind) : k.toJson = k'.toJson ↔ k = k' := by
  constructor
  · intro h
    have hread : some k = some k' := by
      rw [← ofJson?_toJson k, hkind, h, ofJson?_toJson]
    exact Option.some.inj hread
  · intro h
    rw [h]

theorem identity_eq_iff (hkind : k.kind = k'.kind) : k.identity = k'.identity ↔ k = k' := by
  constructor
  · intro h
    cases k with
    | uuid u =>
      cases k' with
      | uuid v => rw [Uuid.text_inj h]
      | _ => cases hkind
    | text s =>
      cases k' with
      | text s' => exact congrArg text h
      | _ => cases hkind
    | integer n =>
      cases k' with
      | integer n' =>
        obtain ⟨a, ha⟩ := n
        obtain ⟨b, hb⟩ := n'
        obtain rfl : a = b := Json.writeInt_inj (String.ofList_injective h)
        rfl
      | _ => cases hkind
  · intro h
    rw [h]

/-- Nothing tells the path of a key from the path of another but what tells their payloads. -/
theorem identity_eq_iff_toJson_eq (hkind : k.kind = k'.kind) :
    k.identity = k'.identity ↔ k.toJson = k'.toJson :=
  (identity_eq_iff hkind).trans (toJson_eq_iff hkind).symm

end Key

/-! ## Keys as references -/

theorem Json.same_string_iff {j : Json} {s : String} :
    j.same (.string s) = true ↔ j = .string s := by
  cases j <;> simp [Json.same]

/-- Nothing but itself equals a key. -/
theorem Key.same_toJson_iff {j : Json} {k : Key} : j.same k.toJson = true ↔ j = k.toJson := by
  cases k with
  | uuid u => exact Json.same_string_iff
  | text s => exact Json.same_string_iff
  | integer n =>
    cases j with
    | number m => cases m <;> simp [toJson, Long.toJson, Json.same, Json.Number.same]
    | _ => simp [toJson, Long.toJson, Json.same]

theorem Json.same_null_iff {j : Json} : j.same .null = true ↔ j = .null := by
  cases j <;> simp [Json.same]

theorem Key.toJson_ne_null (k : Key) : k.toJson ≠ .null := by
  cases k <;> simp [Key.toJson, Long.toJson]

/-! ## Records of one key -/

/-- The key of a record is of the kind that its type declares. -/
def Record.IsKeyed {ρ : Type} (r : Record ρ) : Prop := r.key.kind = r.schema.keyKind

theorem Schema.member?_eq_none {s : Schema} {wire : String}
    (h : wire ∉ s.members.map Member.wire) : s.member? wire = none := by
  apply List.find?_eq_none.2
  intro m hm heq
  exact h (List.mem_map.2 ⟨m, hm, by simpa using heq⟩)

namespace Tree

variable {catalog : Catalog} {s : Schema} {k : Json}

theorem ofRelation?_of_not_isObject (hk : k.isObject = false) :
    ofRelation? catalog s k = ofReference? s k := by
  cases k with
  | object fields => cases hk
  | _ => rfl

/-- **An object that holds nothing but a key** is read as the key alone. -/
theorem ofRelation?_keyOnly (hs : s.keyWire ∉ s.members.map Member.wire) (k : Json) :
    ofRelation? catalog s (.object [(s.keyWire, k)]) = ofReference? s k := by
  have hkey : readKey? s [(s.keyWire, k)] = Key.ofJson? s.keyKind k := by
    simp [readKey?, Members.get?]
  have hmembers : readMembers? catalog s [(s.keyWire, k)] = some [] := by
    simp [readMembers?, Schema.member?_eq_none hs]
  show (readKey? s _).bind (fun key => (readMembers? catalog s _).bind fun given =>
    some (assemble s key given)) = _
  rw [hkey, hmembers]
  unfold ofReference?
  cases Key.ofJson? s.keyKind k with
  | none => rfl
  | some key => rfl

theorem related_stub (s : Schema) (key : Key) : (stub s key).record.related = [] := by
  have hone : (stub s key).record.values.filterMap Value.toOne? = [] := by
    apply List.filterMap_eq_nil_iff.2
    intro v hv
    obtain ⟨m, -, rfl⟩ := List.mem_map.1 hv
    cases m.type <;> rfl
  have hmany : (stub s key).record.values.flatMap Value.toMany = [] := by
    apply List.flatMap_eq_nil_iff.2
    intro v hv
    obtain ⟨m, -, rfl⟩ := List.mem_map.1 hv
    cases m.type <;> rfl
  unfold Record.related
  rw [hone, hmany, List.nil_append]

end Tree

/-! ## Paths and payloads in the heap -/

namespace Heap

variable {heap : Heap} {i j : EntityId} {r r' : Record EntityId}

/-- Entities with keys of one kind have one address exactly when one reference stands for them. -/
theorem identity_eq_iff_reference_eq (hi : heap.read i = .ok r) (hj : heap.read j = .ok r')
    (hkind : r.key.kind = r'.key.kind) :
    heap.identity i = heap.identity j ↔ heap.reference i = heap.reference j := by
  simp only [identity, reference, hi, hj, Except.map, Except.ok.injEq]
  exact Key.identity_eq_iff_toJson_eq hkind

end Heap

/-! ## What a key stands for -/

/-- What the keys of a record type stand for, when they are read and when they are written. -/
structure Schema.KeysStand (catalog : Catalog) (s : Schema) : Prop where
  /-- A bare key is read as the object that holds nothing else. -/
  bare : ∀ k : Json, k.isObject = false →
    Tree.ofRelation? catalog s k = Tree.ofRelation? catalog s (.object [(s.keyWire, k)])
  /-- It is refused exactly when it spells no key of the type. -/
  refused : ∀ k : Json, k.isObject = false →
    (Tree.ofRelation? catalog s k = none ↔ Key.ofJson? s.keyKind k = none)
  /-- The record that it makes has this key, defaults and no relations. -/
  alone : ∀ k : Json, k.isObject = false → ∀ t, Tree.ofRelation? catalog s k = some t →
    t.record.schema = s ∧ Key.ofJson? s.keyKind k = some t.record.key ∧
      t.record.values = s.members.map (fun m => .default m.type) ∧ t.record.related = []
  /-- What refers to a record is read, as a record with the same key. -/
  reference : ∀ {ρ : Type} (r : Record ρ), r.schema = s → r.IsKeyed →
    ∃ t, Tree.ofReference? s r.key.toJson = some t ∧ t.record.schema = s ∧
      t.record.key.identity = r.key.identity ∧ t.record.key.toJson = r.key.toJson
  /-- Two records have one path exactly when one reference stands for them, as a plain value and
  as a change set compares it. -/
  paths : ∀ {ρ : Type} (r r' : Record ρ), r.schema = s → r'.schema = s → r.IsKeyed → r'.IsKeyed →
    (r.key.identity = r'.key.identity ↔ r.key.toJson = r'.key.toJson) ∧
      (ChangeSet.sameReference (some r.key.toJson) (some r'.key.toJson) = true ↔
        r.key.identity = r'.key.identity)
  /-- The same goes for entities. -/
  entities : ∀ (heap : Heap) (i j : EntityId) (r r' : Record EntityId), heap.read i = .ok r →
    heap.read j = .ok r' → r.schema = s → r'.schema = s → r.IsKeyed → r'.IsKeyed →
    (heap.identity i = heap.identity j ↔ heap.reference i = heap.reference j)

theorem Record.IsKeyed.kind_eq {ρ : Type} {r r' : Record ρ} (hr : r.IsKeyed) (hr' : r'.IsKeyed)
    (hschema : r.schema = r'.schema) : r.key.kind = r'.key.kind := by
  rw [hr, hr', hschema]

/-- **A bare key stands for its record.** It is read as the object that holds nothing else, and
what refers to a record is read as a record with the same key. Of two records of one type the paths
are the same exactly when what refers to them is. -/
theorem Tree.bareKey_stands (catalog : Catalog) {s : Schema}
    (hs : s.keyWire ∉ s.members.map Member.wire) : s.KeysStand catalog where
  bare := by
    intro k hk
    rw [ofRelation?_keyOnly hs, ofRelation?_of_not_isObject hk]
  refused := by
    intro k hk
    rw [ofRelation?_of_not_isObject hk]
    exact Option.map_eq_none_iff
  alone := by
    intro k hk t ht
    rw [ofRelation?_of_not_isObject hk] at ht
    obtain ⟨key, hkey, rfl⟩ := Option.map_eq_some_iff.1 ht
    exact ⟨rfl, hkey, rfl, related_stub s key⟩
  reference := by
    intro ρ r hr hkeyed
    have hkind : r.key.kind = s.keyKind := hr ▸ hkeyed
    refine ⟨stub s r.key, ?_, rfl, rfl, rfl⟩
    unfold ofReference?
    rw [← hkind, Key.ofJson?_toJson, Option.map_some]
  paths := by
    intro ρ r r' hr hr' hkeyed hkeyed'
    have hkind := hkeyed.kind_eq hkeyed' (hr.trans hr'.symm)
    refine ⟨Key.identity_eq_iff_toJson_eq hkind, ?_⟩
    show r.key.toJson.same r'.key.toJson = true ↔ _
    rw [Key.same_toJson_iff, Key.identity_eq_iff_toJson_eq hkind]
  entities := by
    intro heap i j r r' hi hj hr hr' hkeyed hkeyed'
    exact Heap.identity_eq_iff_reference_eq hi hj (hkeyed.kind_eq hkeyed' (hr.trans hr'.symm))

/-- A slot whose object gives its key alone, spelled between braces and with capitals, is the one
that the key by itself stands for. -/
theorem Tree.bareKey_stands_slot :
    Models.slot.keyWire ∉ Models.slot.members.map Member.wire ∧
      Models.slot.KeysStand .bundled ∧
      ∃ t, ofRelation? .bundled Models.slot
          (.object [("id", .string "\x7b6F1D7A52-8B8E-4D0C-9D3B-1E2F3A4B5C6D\x7d")]) = some t ∧
        t.record.key.identity = "6f1d7a52-8b8e-4d0c-9d3b-1e2f3a4b5c6d" := by
  have hwire : Models.slot.keyWire ∉ Models.slot.members.map Member.wire := by decide
  have hstand := bareKey_stands .bundled hwire
  refine ⟨hwire, hstand, ?_⟩
  show ∃ t, ofRelation? .bundled Models.slot (.object [(Models.slot.keyWire, _)]) = some t ∧ _
  rw [← hstand.bare _ rfl]
  exact ⟨_, rfl, by decide⟩

end ItemClient
