import ItemClient.Proofs.Json.Text
import ItemClient.Proofs.Record.BareKey
import ItemClient.Proofs.Record.Nodes

/-!
# Scalars that are read back

A scalar is written without its kind and read by it. It comes back when the kind is its own and
what was written tells it (`Scalar.ofJson?_toJson`): a double that is not finite is written as
`null`, a JSON value has its members in order, and something present must not be written like
something absent (`Scalar.IsRegular`).

What is read meets all of this (`Scalar.isRead_of_ofJson?`): a number of a text is finite, an
object of a text comes with its members in order, and `null` is never read as something present.
-/

namespace ItemClient

/-! ## Finite doubles -/

namespace Binary64

theorem isFinite_pack (negative : Bool) (coefficient : Nat) {power : Int} (h : power ≤ 64) :
    (pack negative coefficient power).isFinite = true := by
  have hexponent : (power + 1075).toNat < 2047 := by omega
  unfold pack
  by_cases hshort : coefficient < 0x10000000000000
  · rw [if_pos hshort]
    rfl
  · rw [if_neg hshort, dif_pos hexponent]
    simpa [isFinite] using hexponent

/-- An integer of 64 bits is far below the greatest double. -/
theorem isFinite_ofRatio (negative : Bool) {num : Nat} (h : num < 0x10000000000000000) :
    (ofRatio negative num 1).isFinite = true := by
  unfold ofRatio
  by_cases hzero : num = 0 ∨ 1 = 0
  · rw [if_pos hzero]
    rfl
  · have hlog : num.log2 < 64 := (Nat.log2_lt (by omega)).2 h
    have hone : Nat.log2 1 = 0 := by decide
    rw [if_neg hzero]
    dsimp only
    split_ifs <;> apply isFinite_pack <;> omega

theorem isFinite_ofInt {n : Int} (h : -0x8000000000000000 ≤ n ∧ n < 0x10000000000000000) :
    (ofInt n).isFinite = true := isFinite_ofRatio _ (by omega)

end Binary64

/-! ## What comes back -/

namespace Scalar

mutual

/-- What is written of a value tells it: its doubles are finite, its JSON values have their members
in order, and nothing that is present is written as `null`. -/
def IsRegular : Scalar → Prop
  | float x => x.isFinite = true
  | json j => j.Ordered
  | present value => IsRegular value ∧ value.toJson ≠ .null
  | list items => AreRegular items
  | _ => True

/-- What is written of several values tells them. -/
def AreRegular : List Scalar → Prop
  | [] => True
  | a :: rest => IsRegular a ∧ AreRegular rest

end

variable {kind : Kind} {a : Scalar} {j : Json}

theorem ofJson?_optional (h : j ≠ .null) :
    ofJson? (.optional kind) j = (ofJson? kind j).map present := by
  cases j with
  | null => exact absurd rfl h
  | _ => rfl

theorem canon_eq_null_iff : j.canon = .null ↔ j = .null := by
  cases j <;> simp [Json.canon]

theorem toJsonItems_eq (items : List Scalar) : toJsonItems items = items.map toJson := by
  induction items with
  | nil => rfl
  | cons a items ih => rw [toJsonItems, ih, List.map_cons]

theorem ofJson?_list {items : List Scalar} (hkind : haveKind kind items = true)
    (h : AreRegular items)
    (ih : ∀ {a}, hasKind kind a = true → a.IsRegular → ofJson? kind a.toJson.canon = some a) :
    (items.map fun a => a.toJson.canon).mapM (ofJson? kind) = some items := by
  induction items with
  | nil => rfl
  | cons a items ihitems =>
    rw [haveKind, Bool.and_eq_true] at hkind
    rw [List.map_cons, List.mapM_cons, ih hkind.1 h.1, ihitems hkind.2 h.2]
    rfl

/-- **A value is read from what is written of it.** -/
theorem ofJson?_toJson (hkind : hasKind kind a = true) (h : a.IsRegular) :
    ofJson? kind a.toJson.canon = some a := by
  induction kind generalizing a with
  | uuid =>
    cases a with
    | uuid u =>
      show (Uuid.read? u.text.toList).map uuid = _
      rw [Uuid.read?_text, Option.map_some]
    | _ => simp [hasKind] at hkind
  | text =>
    cases a with
    | text s => rfl
    | _ => simp [hasKind] at hkind
  | integer =>
    cases a with
    | integer n =>
      show (Long.ofJson? n.toJson).map integer = _
      rw [Long.ofJson?_toJson, Option.map_some]
    | _ => simp [hasKind] at hkind
  | float =>
    cases a with
    | float x =>
      have hfinite : x.isFinite = true := h
      simp [toJson, Json.ofFloat, Json.Number.ofFloat?, hfinite, Json.canon, ofJson?,
        floatOfJson?]
    | _ => simp [hasKind] at hkind
  | timestamp =>
    cases a with
    | timestamp t =>
      show (Timestamp.read? t.text.toList).map timestamp = _
      rw [Timestamp.read?_text, Option.map_some]
    | _ => simp [hasKind] at hkind
  | json =>
    cases a with
    | json j =>
      have hordered : j.Ordered := h
      show some (json j.canon) = _
      rw [hordered.canon_eq]
    | _ => simp [hasKind] at hkind
  | optional kind ih =>
    cases a with
    | absent => rfl
    | present a =>
      have hnull : (toJson a).canon ≠ .null := mt canon_eq_null_iff.1 h.2
      show ofJson? _ (toJson a).canon = _
      rw [ofJson?_optional hnull, ih (by simpa only [hasKind] using hkind) h.1, Option.map_some]
    | _ => simp [hasKind] at hkind
  | list kind ih =>
    cases a with
    | list items =>
      have hitems := ofJson?_list (by simpa only [hasKind] using hkind) h ih
      show ((Json.canonItems (toJsonItems items)).mapM (ofJson? kind)).map list = _
      rw [Json.canonItems_eq, toJsonItems_eq, List.map_map, Function.comp_def, hitems,
        Option.map_some]
    | _ => simp [hasKind] at hkind

/-! ## What is read -/

theorem isFinite_of_floatOfJson? {x : Binary64} (h : floatOfJson? j = some x) :
    x.isFinite = true := by
  unfold floatOfJson? at h
  split at h
  · rename_i n hn
    cases h
    exact Binary64.isFinite_ofInt hn
  · rename_i y hfinite
    cases h
    exact hfinite
  · cases h

theorem toJson_float_ne_null {x : Binary64} (h : x.isFinite = true) :
    (float x).toJson ≠ .null := by
  simp [toJson, Json.ofFloat, Json.Number.ofFloat?, h]

/-- What a value is that was read as one of a kind. -/
structure IsRead (kind : Kind) (j : Json) (a : Scalar) : Prop where
  hasKind : hasKind kind a = true
  isRegular : a.IsRegular
  ne_null : j ≠ .null → a.toJson ≠ .null

theorem isRead_list {items : List Json} {as : List Scalar} (hitems : ∀ j ∈ items, j.Ordered)
    (h : items.mapM (ofJson? kind) = some as)
    (ih : ∀ {j a}, j.Ordered → ofJson? kind j = some a → IsRead kind j a) :
    haveKind kind as = true ∧ AreRegular as := by
  induction items generalizing as with
  | nil =>
    cases h
    exact ⟨rfl, trivial⟩
  | cons j items ihitems =>
    rw [List.mapM_cons] at h
    obtain ⟨a, ha, h⟩ := Option.bind_eq_some_iff.1 h
    obtain ⟨rest, hrest, h⟩ := Option.bind_eq_some_iff.1 h
    cases h
    obtain ⟨hj, hothers⟩ := List.forall_mem_cons.1 hitems
    have hread := ih hj ha
    obtain ⟨hkinds, hregular⟩ := ihitems hothers hrest
    refine ⟨?_, hread.isRegular, hregular⟩
    rw [haveKind, hread.hasKind, hkinds, Bool.and_self]

/-- **What is read comes back,** once it is written. -/
theorem isRead_of_ofJson? (hj : j.Ordered) (h : ofJson? kind j = some a) : IsRead kind j a := by
  induction kind generalizing j a with
  | uuid =>
    cases j with
    | string s =>
      obtain ⟨u, -, rfl⟩ := Option.map_eq_some_iff.1 h
      exact ⟨rfl, trivial, fun _ hnull => by cases hnull⟩
    | _ => cases h
  | text =>
    cases j with
    | string s =>
      cases h
      exact ⟨rfl, trivial, fun _ hnull => by cases hnull⟩
    | _ => cases h
  | integer =>
    obtain ⟨n, -, rfl⟩ : ∃ n, Long.ofJson? j = some n ∧ integer n = a := by
      simpa [ofJson?] using h
    exact ⟨rfl, trivial, fun _ hnull => by cases hnull⟩
  | float =>
    obtain ⟨x, hx, rfl⟩ : ∃ x, floatOfJson? j = some x ∧ float x = a := by
      simpa [ofJson?] using h
    have hfinite := isFinite_of_floatOfJson? hx
    exact ⟨rfl, hfinite, fun _ => toJson_float_ne_null hfinite⟩
  | timestamp =>
    cases j with
    | string s =>
      obtain ⟨t, -, rfl⟩ := Option.map_eq_some_iff.1 h
      exact ⟨rfl, trivial, fun _ hnull => by cases hnull⟩
    | _ => cases h
  | json =>
    obtain rfl : json j = a := by simpa [ofJson?] using h
    exact ⟨rfl, hj, fun hne => hne⟩
  | optional kind ih =>
    by_cases hnull : j = .null
    · subst hnull
      cases h
      exact ⟨rfl, trivial, fun hne => absurd rfl hne⟩
    · rw [ofJson?_optional hnull] at h
      obtain ⟨a', ha', rfl⟩ := Option.map_eq_some_iff.1 h
      have hread := ih hj ha'
      have hne : a'.toJson ≠ .null := hread.ne_null hnull
      refine ⟨?_, ⟨hread.isRegular, hne⟩, fun _ => hne⟩
      simpa only [Scalar.hasKind] using hread.hasKind
  | list kind ih =>
    cases j with
    | array items =>
      obtain ⟨as, has, rfl⟩ := Option.map_eq_some_iff.1 h
      cases hj with
      | array hitems =>
        obtain ⟨hkinds, hregular⟩ := isRead_list hitems has ih
        exact ⟨by simpa only [Scalar.hasKind] using hkinds, hregular, fun _ hnull => by cases hnull⟩
    | _ => cases h

theorem isRead_default (kind : Kind) :
    hasKind kind (default kind) = true ∧ (default kind).IsRegular := by
  cases kind <;> exact ⟨rfl, by first | trivial | exact .null⟩

end Scalar

end ItemClient
