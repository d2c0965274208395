import Mathlib.Tactic.SplitIfs
import ItemClient.Proofs.Record.Decoding

/-!
# The records of a tree

A record that is read comes as a tree: a row, each record given in full in place of a relation, each
one of which only the key was given, and each entry of a relation to many. `Tree.nodes` lists them
all, each after those that it is related to.

No record that was read holds a NaN (`Tree.isOrdinary_of_ofJson?`): JSON has no number for it, and
an integer is never rounded to one. So nothing that was read differs from itself.
-/

namespace ItemClient

namespace Tree

/-! ## All records -/

mutual

/-- The records of a tree, each after those that it is related to. -/
def nodes : Tree → List Tree
  | .node s key vs => nodesOfValues vs ++ [.node s key vs]

/-- The records that the members of a record lead to. -/
def nodesOfValues : List (Value Tree) → List Tree
  | [] => []
  | v :: vs => nodesOfValue v ++ nodesOfValues vs

/-- The records that a member leads to. -/
def nodesOfValue : Value Tree → List Tree
  | .scalar _ => []
  | .one none => []
  | .one (some t) => nodes t
  | .many ts => nodesOfTrees ts

/-- The records of several trees. -/
def nodesOfTrees : List Tree → List Tree
  | [] => []
  | t :: ts => nodes t ++ nodesOfTrees ts

end

theorem nodesOfTrees_eq (ts : List Tree) : nodesOfTrees ts = ts.flatMap nodes := by
  induction ts with
  | nil => rfl
  | cons t ts ih => rw [nodesOfTrees, ih, List.flatMap_cons]

theorem nodesOfValue_eq (v : Value Tree) : nodesOfValue v = v.related.flatMap nodes := by
  cases v with
  | scalar a => rfl
  | one related =>
    cases related with
    | none => rfl
    | some t => simp [nodesOfValue, Value.related]
  | many ts => exact nodesOfTrees_eq ts

theorem nodesOfValues_eq (vs : List (Value Tree)) : nodesOfValues vs = vs.flatMap nodesOfValue := by
  induction vs with
  | nil => rfl
  | cons v vs ih => rw [nodesOfValues, ih, List.flatMap_cons]

/-- **The records of a tree** are those of all it is related to, and then the one at the root. -/
theorem nodes_eq (t : Tree) :
    t.nodes = (t.record.values.flatMap fun v => v.related.flatMap nodes) ++ [t] := by
  obtain ⟨s, key, vs⟩ := t
  rw [nodes, nodesOfValues_eq]
  exact congrArg (fun f => vs.flatMap f ++ _) (funext nodesOfValue_eq)

theorem mem_nodes_iff {t t' : Tree} :
    t' ∈ t.nodes ↔ (∃ child ∈ t.record.related, t' ∈ child.nodes) ∨ t' = t := by
  rw [nodes_eq, List.mem_append, List.mem_singleton]
  refine or_congr_left ?_
  simp only [List.mem_flatMap, Record.mem_related_iff]
  constructor
  · rintro ⟨v, hv, child, hchild, ht'⟩
    exact ⟨child, ⟨v, hv, hchild⟩, ht'⟩
  · rintro ⟨child, ⟨v, hv, hchild⟩, ht'⟩
    exact ⟨v, hv, child, hchild, ht'⟩

end Tree

/-! ## No NaN is read -/

namespace Binary64

theorem isNaN_pack (negative : Bool) (coefficient : Nat) (power : Int) :
    (pack negative coefficient power).isNaN = false := by
  unfold pack
  split_ifs with hshort hpower
  · rfl
  · exact isNaN_of_isFinite (by simpa [isFinite] using hpower)
  · rfl

/-- Rounding gives no NaN. -/
theorem isNaN_ofRatio (negative : Bool) (num den : Nat) :
    (ofRatio negative num den).isNaN = false := by
  unfold ofRatio
  split
  · rfl
  · dsimp only
    split_ifs <;> exact isNaN_pack _ _ _

end Binary64

namespace Scalar

theorem isOrdinary_default (kind : Kind) : (Scalar.default kind).isOrdinary = true := by
  cases kind <;> rfl

theorem isNaN_of_floatOfJson? {j : Json} {x : Binary64} (h : floatOfJson? j = some x) :
    x.isNaN = false := by
  unfold floatOfJson? at h
  split at h
  · cases h
    exact Binary64.isNaN_ofRatio _ _ _
  · rename_i y hfinite
    cases h
    exact Binary64.isNaN_of_isFinite hfinite
  · cases h

theorem areOrdinary_of_mapM {kind : Kind} {items : List Json} {as : List Scalar}
    (hkind : ∀ {j a}, ofJson? kind j = some a → a.isOrdinary = true)
    (h : items.mapM (ofJson? kind) = some as) : areOrdinary as = true := by
  induction items generalizing as with
  | nil =>
    cases h
    rfl
  | cons j items ih =>
    simp only [List.mapM_cons, Option.bind_eq_bind, Option.bind_eq_some_iff, Option.pure_def,
      Option.some.injEq] at h
    obtain ⟨a, ha, rest, hrest, rfl⟩ := h
    rw [areOrdinary, hkind ha, ih hrest, Bool.and_true]

/-- A value that is read holds no NaN. -/
theorem isOrdinary_of_ofJson? {kind : Kind} {j : Json} {a : Scalar} (h : ofJson? kind j = some a) :
    a.isOrdinary = true := by
  induction kind generalizing j a with
  | float =>
    obtain ⟨x, hx, rfl⟩ : ∃ x, floatOfJson? j = some x ∧ Scalar.float x = a := by
      simpa [ofJson?] using h
    simpa [isOrdinary] using isNaN_of_floatOfJson? hx
  | optional kind ih =>
    by_cases hnull : j = .null
    · subst hnull
      cases h
      rfl
    · obtain ⟨a', ha', rfl⟩ : ∃ a', ofJson? kind j = some a' ∧ present a' = a := by
        cases j <;> simp_all [ofJson?]
      simpa only [isOrdinary] using ih ha'
  | list kind ih =>
    cases j with
    | array items =>
      obtain ⟨as, has, rfl⟩ := Option.map_eq_some_iff.1 h
      simpa only [isOrdinary] using areOrdinary_of_mapM ih has
    | _ => cases h
  | _ =>
    -- No value of another kind is a double or made of other values.
    cases a with
    | float x => cases j <;> simp [ofJson?] at h
    | present a => cases j <;> simp [ofJson?] at h
    | list as => cases j <;> simp [ofJson?] at h
    | _ => rfl

end Scalar

namespace Tree

variable {catalog : Catalog} {s : Schema} {j : Json} {t t' : Tree}
  {fields : List (String × Json)} {given : Members (Value Tree)} {v : Value Tree}

/-- All that the members of a record hold was read, or is there by default. -/
def IsGiven (catalog : Catalog) (t : Tree) : Prop :=
  ∀ v ∈ t.record.values, ∃ type given, readGiven? catalog type given = some v

theorem exists_of_get?_readMembers? {wire : String} (h : readMembers? catalog s fields = some given)
    (hv : given.get? wire = some v) : ∃ type j, readValue? catalog type j = some v := by
  induction fields generalizing given with
  | nil =>
    cases h
    cases hv
  | cons entry rest ih =>
    obtain ⟨name, j⟩ := entry
    rw [readMembers?] at h
    cases hname : s.member? name with
    | none =>
      simp only [hname] at h
      exact ih h hv
    | some m =>
      simp only [hname, Option.bind_eq_bind, Option.bind_eq_some_iff, Option.pure_def,
        Option.some.injEq] at h
      obtain ⟨w, hw, given', hgiven', rfl⟩ := h
      rw [Members.get?] at hv
      split at hv
      · cases hv
        exact ⟨_, j, hw⟩
      · exact ih hgiven' hv

theorem isGiven_of_ofFields? (h : ofFields? catalog s fields = some t) : t.IsGiven catalog := by
  obtain ⟨key, given, -, hgiven, rfl⟩ := ofFields?_eq_some h
  intro v hv
  obtain ⟨m, -, rfl⟩ := List.mem_map.1 hv
  cases hget : given.get? m.wire with
  | none => exact ⟨m.type, none, rfl⟩
  | some v =>
    obtain ⟨type, j, hj⟩ := exists_of_get?_readMembers? hgiven hget
    exact ⟨type, some j, hj⟩

theorem isGiven_of_ofJson? (h : ofJson? catalog s j = some t) : t.IsGiven catalog := by
  cases j with
  | object fields => exact isGiven_of_ofFields? h
  | array items =>
    simp only [ofJson?] at h
    split at h
    · exact isGiven_of_ofFields? h
    · cases h
  | _ => cases h

theorem isGiven_stub (catalog : Catalog) (s : Schema) (key : Key) :
    (stub s key).IsGiven catalog := by
  intro v hv
  obtain ⟨m, -, rfl⟩ := List.mem_map.1 hv
  exact ⟨m.type, none, rfl⟩

theorem isGiven_of_ofRelation? (h : ofRelation? catalog s j = some t) : t.IsGiven catalog := by
  cases j with
  | object fields => exact isGiven_of_ofFields? h
  | _ =>
    obtain ⟨key, -, rfl⟩ := Option.map_eq_some_iff.1 h
    exact isGiven_stub catalog s key

/-- What a record that was read is related to was read as well. -/
theorem IsGiven.of_mem_related (h : t.IsGiven catalog) (ht' : t' ∈ t.record.related) :
    t'.IsGiven catalog := by
  obtain ⟨v, hv, ht'⟩ := Record.mem_related_iff.1 ht'
  obtain ⟨type, given, hread⟩ := h v hv
  rcases (readGiven?_eq_some hread).2 with hnone | ⟨target, s', -, -, hall⟩
  · rw [hnone] at ht'
    cases ht'
  · obtain ⟨j', -, hj'⟩ := hall.exists_left ht'
    exact isGiven_of_ofRelation? hj'

theorem IsGiven.isOrdinary (h : t.IsGiven catalog) : t.record.IsOrdinary := by
  intro a ha
  obtain ⟨type, given, hread⟩ := h _ ha
  cases given with
  | none =>
    cases type <;> cases hread
    exact Scalar.isOrdinary_default _
  | some j =>
    have hholds := (readGiven?_eq_some hread).1
    cases type with
    | scalar kind =>
      simp only [readGiven?, Option.elim_some, readValue?, Option.map_eq_some_iff] at hread
      obtain ⟨a', ha', heq⟩ := hread
      cases heq
      exact Scalar.isOrdinary_of_ofJson? ha'
    | _ => exact hholds.elim

theorem IsGiven.isOrdinary_of_mem_nodes {t t' : Tree} (h : t.IsGiven catalog) (ht' : t' ∈ t.nodes) :
    t'.record.IsOrdinary := by
  rcases mem_nodes_iff.1 ht' with ⟨child, hchild, ht'⟩ | rfl
  · exact (h.of_mem_related hchild).isOrdinary_of_mem_nodes ht'
  · exact h.isOrdinary
termination_by sizeOf t
decreasing_by exact sizeOf_lt_of_mem_related hchild

/-- **No record that is read holds a NaN.** -/
theorem isOrdinary_of_ofJson? (h : ofJson? catalog s j = some t) :
    ∀ t' ∈ t.nodes, t'.record.IsOrdinary := fun _ ht' =>
  (isGiven_of_ofJson? h).isOrdinary_of_mem_nodes ht'

end Tree

end ItemClient
