import Mathlib.Data.String.Basic
import ItemClient.Json.Members

/-!
# Members in order

What `Members.put` does to the names and to the entry under each of them. Putting entries keeps the
names in ascending order (`Members.Ascending`), and members in that order are known by what they
say: two lists of them that hold the same entry under every name are the same list
(`Members.Ascending.ext`).
-/

namespace ItemClient.Members

variable {α : Type} {name other : String} {ms ns : Members α}

/-! ## The entry under a name -/

@[simp] theorem get?_put_self (name : String) (a : α) (ms : Members α) :
    (ms.put name a).get? name = some a := by
  induction ms with
  | nil => simp [put, get?]
  | cons entry ms ih =>
    obtain ⟨n, b⟩ := entry
    by_cases hn : n = name
    · simp [put, get?, hn]
    · by_cases hlt : name < n
      · rw [put, if_neg hn, if_pos hlt, get?, if_pos rfl]
      · rw [put, if_neg hn, if_neg hlt, get?, if_neg hn, ih]

theorem get?_put_of_ne (h : name ≠ other) (a : α) (ms : Members α) :
    (ms.put name a).get? other = ms.get? other := by
  induction ms with
  | nil => simp [put, get?, h]
  | cons entry ms ih =>
    obtain ⟨n, b⟩ := entry
    by_cases hn : n = name
    · subst hn
      simp [put, get?, h]
    · by_cases hlt : name < n
      · rw [put, if_neg hn, if_pos hlt, get?, if_neg h]
      · rw [put, if_neg hn, if_neg hlt, get?, get?, ih]

theorem isSome_get?_iff : (ms.get? name).isSome = true ↔ name ∈ ms.names := by
  induction ms with
  | nil => simp [get?, names]
  | cons entry ms ih =>
    obtain ⟨n, b⟩ := entry
    rw [get?, names, List.map_cons, List.mem_cons]
    by_cases hn : n = name
    · simp [hn]
    · rw [if_neg hn, ih, names]
      exact (or_iff_right (Ne.symm hn)).symm

theorem has_iff : ms.has name = true ↔ name ∈ ms.names := isSome_get?_iff

theorem get?_eq_none (h : name ∉ ms.names) : ms.get? name = none :=
  Option.not_isSome_iff_eq_none.1 (mt isSome_get?_iff.1 h)

/-! ## Names -/

theorem mem_names_put (a : α) :
    other ∈ (ms.put name a).names ↔ other = name ∨ other ∈ ms.names := by
  rw [← isSome_get?_iff, ← isSome_get?_iff]
  by_cases h : name = other
  · simp [h]
  · rw [get?_put_of_ne h]
    exact (or_iff_right (Ne.symm h)).symm

/-- The names stand in strictly ascending order. -/
def Ascending (ms : Members α) : Prop := ms.names.Pairwise (· < ·)

theorem ascending_cons {a : α} :
    Ascending ((name, a) :: ms) ↔ (∀ n ∈ ms.names, name < n) ∧ ms.Ascending :=
  List.pairwise_cons

theorem Ascending.put (h : ms.Ascending) (name : String) (a : α) : (ms.put name a).Ascending := by
  induction ms with
  | nil => exact List.pairwise_singleton _ _
  | cons entry ms ih =>
    obtain ⟨n, b⟩ := entry
    obtain ⟨hfirst, hrest⟩ := ascending_cons.1 h
    by_cases hn : n = name
    · subst hn
      rw [Members.put, if_pos rfl]
      exact h
    · by_cases hlt : name < n
      · rw [Members.put, if_neg hn, if_pos hlt]
        refine ascending_cons.2 ⟨fun m hm => ?_, h⟩
        rcases List.mem_cons.1 hm with rfl | hm
        · exact hlt
        · exact lt_trans hlt (hfirst m hm)
      · rw [Members.put, if_neg hn, if_neg hlt]
        refine ascending_cons.2 ⟨fun m hm => ?_, ih hrest⟩
        rcases (mem_names_put a).1 hm with rfl | hm
        · exact lt_of_le_of_ne (le_of_not_gt hlt) hn
        · exact hfirst m hm

/-- Putting an entry makes the list longer exactly when there was none under the name. -/
theorem Ascending.length_put (h : ms.Ascending) (name : String) (a : α) :
    (ms.put name a).length = ms.length + if ms.has name then 0 else 1 := by
  induction ms with
  | nil => rfl
  | cons entry ms ih =>
    obtain ⟨n, b⟩ := entry
    obtain ⟨hfirst, hrest⟩ := ascending_cons.1 h
    by_cases hn : n = name
    · have hhas : has name ((n, b) :: ms) = true := has_iff.2 (hn ▸ List.mem_cons_self)
      rw [Members.put, if_pos hn, if_pos hhas]
      rfl
    · have hhas : has name ((n, b) :: ms) = has name ms := by rw [has, has, get?, if_neg hn]
      by_cases hlt : name < n
      · have hnone : name ∉ names ms := fun hmem => lt_asymm hlt (hfirst name hmem)
        rw [Members.put, if_neg hn, if_pos hlt, hhas, if_neg (mt has_iff.1 hnone)]
        rfl
      · rw [Members.put, if_neg hn, if_neg hlt, List.length_cons, ih hrest, hhas, List.length_cons]
        omega

theorem mem_names_congr (h : ∀ name, ms.get? name = ns.get? name) :
    name ∈ ms.names ↔ name ∈ ns.names := by
  rw [← isSome_get?_iff, ← isSome_get?_iff, h]

/-- Members in order are known by the entry that they hold under each name. -/
theorem Ascending.ext (hms : ms.Ascending) (hns : ns.Ascending)
    (h : ∀ name, ms.get? name = ns.get? name) : ms = ns := by
  induction ms generalizing ns with
  | nil =>
    cases ns with
    | nil => rfl
    | cons entry ns => exact absurd ((mem_names_congr h).2 List.mem_cons_self) List.not_mem_nil
  | cons entry ms ih =>
    obtain ⟨m, a⟩ := entry
    cases ns with
    | nil => exact absurd ((mem_names_congr h).1 List.mem_cons_self) List.not_mem_nil
    | cons entry ns =>
      obtain ⟨n, b⟩ := entry
      obtain ⟨hm, hms'⟩ := ascending_cons.1 hms
      obtain ⟨hn, hns'⟩ := ascending_cons.1 hns
      -- The first name is the least of all, and both lists have the same names.
      have hfirst : m = n := by
        rcases List.mem_cons.1 ((mem_names_congr h).1 List.mem_cons_self) with heq | hmem
        · exact heq
        · rcases List.mem_cons.1 ((mem_names_congr h).2 List.mem_cons_self) with heq | hmem'
          · exact heq.symm
          · exact absurd (hn m hmem) (lt_asymm (hm n hmem'))
      subst hfirst
      have hentry : a = b := by simpa [get?] using h m
      have hrest : ∀ name, get? name ms = get? name ns := fun name => by
        by_cases hname : m = name
        · subst hname
          rw [get?_eq_none fun hmem => lt_irrefl m (hm m hmem),
            get?_eq_none fun hmem => lt_irrefl m (hn m hmem)]
        · simpa [get?, hname] using h name
      rw [hentry, ih hms' hns' hrest]

/-! ## Many entries -/

theorem get?_eq_some_iff (h : ms.names.Nodup) {a : α} :
    ms.get? name = some a ↔ (name, a) ∈ ms := by
  induction ms with
  | nil => simp [get?]
  | cons entry ms ih =>
    obtain ⟨n, b⟩ := entry
    obtain ⟨hn, hnodup⟩ := List.nodup_cons.1 h
    rw [get?, List.mem_cons]
    by_cases hname : n = name
    · subst hname
      have hlater : (n, a) ∉ ms := fun hmem => hn (List.mem_map.2 ⟨_, hmem, rfl⟩)
      rw [if_pos rfl, or_iff_left hlater]
      simp [eq_comm]
    · rw [if_neg hname, ih hnodup]
      simp [Ne.symm hname]

theorem mem_of_get? {a : α} (h : ms.get? name = some a) : (name, a) ∈ ms := by
  induction ms with
  | nil => cases h
  | cons entry ms ih =>
    obtain ⟨n, b⟩ := entry
    rw [get?] at h
    split at h
    · rename_i hname
      cases h
      exact hname ▸ List.mem_cons_self
    · exact List.mem_cons_of_mem _ (ih h)

theorem Ascending.nodup (h : ms.Ascending) : ms.names.Nodup := h.imp fun hlt => ne_of_lt hlt

theorem Ascending.putAll (h : ms.Ascending) (entries : List (String × α)) :
    (Members.putAll entries ms).Ascending := by
  induction entries generalizing ms with
  | nil => exact h
  | cons entry entries ih => exact ih (h.put entry.1 entry.2)

/-- Entries with names of their own are all there afterwards, along with what was there under other
names. -/
theorem get?_putAll {entries : List (String × α)} (h : (entries.map Prod.fst).Nodup) :
    (putAll entries ms).get? name = (get? name entries).or (ms.get? name) := by
  induction entries generalizing ms with
  | nil => rfl
  | cons entry entries ih =>
    obtain ⟨n, a⟩ := entry
    obtain ⟨hn, hnodup⟩ := List.nodup_cons.1 h
    show (putAll entries (ms.put n a)).get? name = _
    rw [ih hnodup, get?]
    by_cases hname : n = name
    · subst hname
      rw [get?_eq_none hn, if_pos rfl, get?_put_self]
      rfl
    · rw [if_neg hname, get?_put_of_ne hname]

theorem ascending_ofList (entries : List (String × α)) : (ofList entries).Ascending := by
  have hnil : Ascending ([] : Members α) := List.Pairwise.nil
  exact hnil.putAll entries

theorem get?_ofList {entries : List (String × α)} (h : (entries.map Prod.fst).Nodup) :
    (ofList entries).get? name = get? name entries := by
  rw [ofList, get?_putAll h, get?, Option.or_none]

/-- Members in order stay as they are. -/
theorem Ascending.ofList_eq (h : ms.Ascending) : Members.ofList ms = ms :=
  (ascending_ofList ms).ext h fun _ => get?_ofList h.nodup

theorem mem_of_mem_put {a : α} {entry : String × α} (h : entry ∈ ms.put name a) :
    entry = (name, a) ∨ entry ∈ ms := by
  induction ms with
  | nil => exact .inl (List.mem_singleton.1 h)
  | cons first ms ih =>
    obtain ⟨n, b⟩ := first
    rw [put] at h
    split at h
    · exact (List.mem_cons.1 h).imp_right (List.mem_cons_of_mem _)
    · split at h
      · exact List.mem_cons.1 h
      · rcases List.mem_cons.1 h with rfl | h
        · exact .inr List.mem_cons_self
        · exact (ih h).imp_right (List.mem_cons_of_mem _)

theorem mem_of_mem_putAll {entries : List (String × α)} {entry : String × α}
    (h : entry ∈ putAll entries ms) : entry ∈ entries ∨ entry ∈ ms := by
  induction entries generalizing ms with
  | nil => exact .inr h
  | cons first entries ih =>
    rcases ih h with hlater | hput
    · exact .inl (List.mem_cons_of_mem _ hlater)
    · rcases mem_of_mem_put hput with rfl | hmem
      · exact .inl List.mem_cons_self
      · exact .inr hmem

theorem mem_of_mem_ofList {entries : List (String × α)} {entry : String × α}
    (h : entry ∈ ofList entries) : entry ∈ entries :=
  (mem_of_mem_putAll h).resolve_right List.not_mem_nil

end ItemClient.Members
