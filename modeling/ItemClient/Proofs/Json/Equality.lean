import ItemClient.Record.Scalar

/-!
# Equality of values

`Json.same` is an equivalence: a JSON number is never NaN. `Scalar.same` is not, as a NaN differs
from itself, but scalars that are the same are the same as JSON (`Scalar.toJson_same`).
-/

namespace ItemClient

namespace Binary64

variable {x y z : Binary64}

theorem same_iff : x.same y = true ↔
    x.isNaN = false ∧ y.isNaN = false ∧ (x.isZero = true ∧ y.isZero = true ∨ x = y) := by
  simp [same, and_assoc]

theorem isNaN_of_isFinite (h : x.isFinite = true) : x.isNaN = false := by
  have : x.exponent ≠ 2047 := by
    have hlt : x.exponent < 2047 := by simpa [isFinite] using h
    omega
  simp [isNaN, this]

theorem isFinite_of_isZero (h : x.isZero = true) : x.isFinite = true := by
  have : x.exponent = 0 := by
    simp only [isZero, Bool.and_eq_true, decide_eq_true_eq] at h
    exact h.1
  simp [isFinite, this]

theorem same_self (h : x.isNaN = false) : x.same x = true := same_iff.2 ⟨h, h, .inr rfl⟩

theorem same_symm (h : x.same y = true) : y.same x = true := by
  obtain ⟨hx, hy, h⟩ := same_iff.1 h
  exact same_iff.2 ⟨hy, hx, h.imp And.symm Eq.symm⟩

theorem same_trans (h : x.same y = true) (h' : y.same z = true) : x.same z = true := by
  obtain ⟨hx, -, h⟩ := same_iff.1 h
  obtain ⟨-, hz, h'⟩ := same_iff.1 h'
  refine same_iff.2 ⟨hx, hz, ?_⟩
  rcases h with ⟨hx0, hy0⟩ | rfl
  · rcases h' with ⟨-, hz0⟩ | rfl
    · exact .inl ⟨hx0, hz0⟩
    · exact .inl ⟨hx0, hy0⟩
  · exact h'

end Binary64

namespace Json

namespace Number

theorem same_refl (n : Number) : n.same n = true := by
  cases n with
  | integer n _ => simp [same]
  | float x hx => exact Binary64.same_self (Binary64.isNaN_of_isFinite hx)

theorem same_symm {m n : Number} (h : m.same n = true) : n.same m = true := by
  cases m <;> cases n <;> simp only [same, decide_eq_true_eq, Bool.false_eq_true] at h ⊢
  · exact h.symm
  · exact Binary64.same_symm h

theorem same_trans {l m n : Number} (h : l.same m = true) (h' : m.same n = true) :
    l.same n = true := by
  cases l <;> cases m <;> cases n <;>
    simp only [same, decide_eq_true_eq, Bool.false_eq_true] at h h' ⊢
  · exact h.trans h'
  · exact Binary64.same_trans h h'

end Number

/-! ## Equivalence -/

mutual

theorem same_refl : ∀ a : Json, a.same a = true
  | null => rfl
  | bool _ => by simp [same]
  | number n => by simpa [same] using n.same_refl
  | string _ => by simp [same]
  | array items => by simpa [same] using sameItems_refl items
  | object members => by simpa [same] using sameMembers_refl members

theorem sameItems_refl : ∀ as : List Json, sameItems as as = true
  | [] => rfl
  | a :: as => by simp [sameItems, same_refl a, sameItems_refl as]

theorem sameMembers_refl : ∀ as : List (String × Json), sameMembers as as = true
  | [] => rfl
  | (_, a) :: as => by simp [sameMembers, same_refl a, sameMembers_refl as]

end

mutual

theorem same_symm : ∀ {a b : Json}, a.same b = true → b.same a = true
  | null, b, h => by cases b <;> simp_all [same]
  | bool _, b, h => by cases b <;> simp_all [same]
  | string _, b, h => by cases b <;> simp_all [same]
  | number _, b, h => by
    cases b with
    | number _ => exact Number.same_symm h
    | _ => simp [same] at h
  | array as, b, h => by
    cases b with
    | array bs => simpa only [same] using sameItems_symm (by simpa only [same] using h)
    | _ => simp [same] at h
  | object as, b, h => by
    cases b with
    | object bs => simpa only [same] using sameMembers_symm (by simpa only [same] using h)
    | _ => simp [same] at h

theorem sameItems_symm : ∀ {as bs : List Json}, sameItems as bs = true → sameItems bs as = true
  | [], bs, h => by cases bs <;> simp_all [sameItems]
  | a :: as, bs, h => by
    cases bs with
    | nil => simp [sameItems] at h
    | cons b bs =>
      simp only [sameItems, Bool.and_eq_true] at h ⊢
      exact ⟨same_symm h.1, sameItems_symm h.2⟩

theorem sameMembers_symm : ∀ {as bs : List (String × Json)},
    sameMembers as bs = true → sameMembers bs as = true
  | [], bs, h => by cases bs <;> simp_all [sameMembers]
  | (m, a) :: as, bs, h => by
    cases bs with
    | nil => simp [sameMembers] at h
    | cons b bs =>
      simp only [sameMembers, Bool.and_eq_true, decide_eq_true_eq] at h ⊢
      exact ⟨⟨h.1.1.symm, same_symm h.1.2⟩, sameMembers_symm h.2⟩

end

mutual

theorem same_trans : ∀ {a b c : Json}, a.same b = true → b.same c = true → a.same c = true
  | null, b, c, h, h' => by
    cases b with
    | null => exact h'
    | _ => simp [same] at h
  | bool _, b, c, h, h' => by
    cases b with
    | bool _ => rwa [of_decide_eq_true h]
    | _ => simp [same] at h
  | string _, b, c, h, h' => by
    cases b with
    | string _ => rwa [of_decide_eq_true h]
    | _ => simp [same] at h
  | number _, b, c, h, h' => by
    cases b with
    | number _ =>
      cases c with
      | number _ => exact Number.same_trans h h'
      | _ => simp [same] at h'
    | _ => simp [same] at h
  | array as, b, c, h, h' => by
    cases b with
    | array bs =>
      cases c with
      | array cs =>
        simp only [same] at h h' ⊢
        exact sameItems_trans h h'
      | _ => simp [same] at h'
    | _ => simp [same] at h
  | object as, b, c, h, h' => by
    cases b with
    | object bs =>
      cases c with
      | object cs =>
        simp only [same] at h h' ⊢
        exact sameMembers_trans h h'
      | _ => simp [same] at h'
    | _ => simp [same] at h

theorem sameItems_trans : ∀ {as bs cs : List Json},
    sameItems as bs = true → sameItems bs cs = true → sameItems as cs = true
  | [], bs, cs, h, h' => by cases bs <;> simp_all [sameItems]
  | a :: as, bs, cs, h, h' => by
    cases bs with
    | nil => simp [sameItems] at h
    | cons b bs =>
      cases cs with
      | nil => simp [sameItems] at h'
      | cons c cs =>
        simp only [sameItems, Bool.and_eq_true] at h h' ⊢
        exact ⟨same_trans h.1 h'.1, sameItems_trans h.2 h'.2⟩

theorem sameMembers_trans : ∀ {as bs cs : List (String × Json)},
    sameMembers as bs = true → sameMembers bs cs = true → sameMembers as cs = true
  | [], bs, cs, h, h' => by cases bs <;> simp_all [sameMembers]
  | (m, a) :: as, bs, cs, h, h' => by
    cases bs with
    | nil => simp [sameMembers] at h
    | cons b bs =>
      cases cs with
      | nil => simp [sameMembers] at h'
      | cons c cs =>
        simp only [sameMembers, Bool.and_eq_true, decide_eq_true_eq] at h h' ⊢
        exact ⟨⟨h.1.1.trans h'.1.1, same_trans h.1.2 h'.1.2⟩, sameMembers_trans h.2 h'.2⟩

end

theorem sameMembers_congr {as bs cs : List (String × Json)} (h : sameMembers bs cs = true) :
    sameMembers as bs = true ↔ sameMembers as cs = true :=
  ⟨fun hab => sameMembers_trans hab h, fun hac => sameMembers_trans hac (sameMembers_symm h)⟩

theorem names_of_sameMembers {as bs : List (String × Json)} (h : sameMembers as bs = true) :
    as.map Prod.fst = bs.map Prod.fst := by
  induction as generalizing bs with
  | nil => cases bs <;> simp_all [sameMembers]
  | cons a as ih =>
    cases bs with
    | nil => simp [sameMembers] at h
    | cons b bs =>
      simp only [sameMembers, Bool.and_eq_true, decide_eq_true_eq] at h
      rw [List.map_cons, List.map_cons, h.1.1, ih h.2]

/-- Members under the same names, each used once, are equal when each value has its equal. -/
theorem sameMembers_iff {as bs : List (String × Json)}
    (hnames : as.map Prod.fst = bs.map Prod.fst) (hnodup : (as.map Prod.fst).Nodup) :
    sameMembers as bs = true ↔
      ∀ name a, (name, a) ∈ as → ∃ b, (name, b) ∈ bs ∧ a.same b = true := by
  induction as generalizing bs with
  | nil =>
    obtain rfl : bs = [] := List.map_eq_nil_iff.1 hnames.symm
    simp [sameMembers]
  | cons entry as ih =>
    obtain ⟨n, a⟩ := entry
    cases bs with
    | nil => simp at hnames
    | cons entry' bs =>
      obtain ⟨n', b⟩ := entry'
      simp only [List.map_cons, List.cons.injEq] at hnames
      obtain ⟨rfl, hnames⟩ := hnames
      rw [List.map_cons, List.nodup_cons] at hnodup
      obtain ⟨hn, hnodup⟩ := hnodup
      simp only [sameMembers, Bool.and_eq_true, decide_true, true_and, ih hnames hnodup]
      constructor
      · rintro ⟨hab, hrest⟩ name c hc
        rcases List.mem_cons.1 hc with heq | hc
        · cases heq
          exact ⟨b, List.mem_cons_self, hab⟩
        · obtain ⟨d, hd, hcd⟩ := hrest name c hc
          exact ⟨d, List.mem_cons_of_mem _ hd, hcd⟩
      · intro hall
        constructor
        · obtain ⟨d, hd, had⟩ := hall n a List.mem_cons_self
          rcases List.mem_cons.1 hd with heq | hd
          · cases heq
            exact had
          · have hmem : n ∈ bs.map Prod.fst := List.mem_map.2 ⟨_, hd, rfl⟩
            exact absurd (hnames ▸ hmem) hn
        · intro name c hc
          obtain ⟨d, hd, hcd⟩ := hall name c (List.mem_cons_of_mem _ hc)
          rcases List.mem_cons.1 hd with heq | hd
          · cases heq
            exact absurd (List.mem_map.2 ⟨_, hc, rfl⟩) hn
          · exact ⟨d, hd, hcd⟩

end Json

/-! ## Scalars -/

theorem Json.ofFloat_same {x y : Binary64} (h : x.same y = true) :
    (Json.ofFloat x).same (Json.ofFloat y) = true := by
  obtain ⟨-, -, ⟨hx, hy⟩ | rfl⟩ := Binary64.same_iff.1 h
  · have hx := Binary64.isFinite_of_isZero hx
    have hy := Binary64.isFinite_of_isZero hy
    simpa [ofFloat, Number.ofFloat?, hx, hy, same, Number.same] using h
  · exact same_refl _

namespace Scalar

mutual

theorem toJson_same : ∀ {a b : Scalar}, a.same b = true → a.toJson.same b.toJson = true
  | uuid _, b, h => by cases b <;> simp_all [same, toJson, Json.same]
  | text _, b, h => by cases b <;> simp_all [same, toJson, Json.same]
  | integer _, b, h => by cases b <;> simp_all [same, toJson, Json.same_refl]
  | timestamp _, b, h => by cases b <;> simp_all [same, toJson, Json.same]
  | absent, b, h => by cases b <;> simp_all [same, toJson, Json.same]
  | float _, b, h => by
    cases b with
    | float _ => exact Json.ofFloat_same h
    | _ => simp [same] at h
  | json _, b, h => by
    cases b with
    | json _ => simpa only [same, toJson] using h
    | _ => simp [same] at h
  | present a, b, h => by
    cases b with
    | present b => simpa only [toJson] using toJson_same (by simpa only [same] using h)
    | _ => simp [same] at h
  | list as, b, h => by
    cases b with
    | list bs =>
      simpa only [toJson, Json.same] using toJsonItems_same (by simpa only [same] using h)
    | _ => simp [same] at h

theorem toJsonItems_same : ∀ {as bs : List Scalar},
    sameItems as bs = true → Json.sameItems (toJsonItems as) (toJsonItems bs) = true
  | [], bs, h => by cases bs <;> simp_all [sameItems, toJsonItems, Json.sameItems]
  | a :: as, bs, h => by
    cases bs with
    | nil => simp [sameItems] at h
    | cons b bs =>
      simp only [sameItems, Bool.and_eq_true] at h
      simp only [toJsonItems, Json.sameItems, Bool.and_eq_true]
      exact ⟨toJson_same h.1, toJsonItems_same h.2⟩

end

mutual

/-- No double in a value is NaN. -/
def isOrdinary : Scalar → Bool
  | float x => !x.isNaN
  | present value => isOrdinary value
  | list items => areOrdinary items
  | _ => true

/-- No double in a list of values is NaN. -/
def areOrdinary : List Scalar → Bool
  | [] => true
  | a :: rest => isOrdinary a && areOrdinary rest

end

mutual

/-- A value without NaN is the same as itself. -/
theorem same_self : ∀ {a : Scalar}, a.isOrdinary = true → a.same a = true
  | uuid _, _ => by simp [same]
  | text _, _ => by simp [same]
  | integer _, _ => by simp [same]
  | float _, h => Binary64.same_self (by simpa [isOrdinary] using h)
  | timestamp _, _ => by simp [same]
  | json j, _ => j.same_refl
  | absent, _ => rfl
  | present a, h => by simpa only [same] using same_self (by simpa only [isOrdinary] using h)
  | list as, h => by simpa only [same] using sameItems_self (by simpa only [isOrdinary] using h)

theorem sameItems_self : ∀ {as : List Scalar}, areOrdinary as = true → sameItems as as = true
  | [], _ => rfl
  | a :: as, h => by
    simp only [areOrdinary, Bool.and_eq_true] at h
    simp only [sameItems, Bool.and_eq_true]
    exact ⟨same_self h.1, sameItems_self h.2⟩

end

mutual

/-- A value with a NaN is not the same as itself. -/
theorem isOrdinary_of_same_self : ∀ {a : Scalar}, a.same a = true → a.isOrdinary = true
  | uuid _, _ | text _, _ | integer _, _ | timestamp _, _ | json _, _ | absent, _ => rfl
  | float x, h => by simp [isOrdinary, (Binary64.same_iff.1 h).1]
  | present a, h => by
    simpa only [isOrdinary] using isOrdinary_of_same_self (by simpa only [same] using h)
  | list as, h => by
    simpa only [isOrdinary] using areOrdinary_of_sameItems_self (by simpa only [same] using h)

theorem areOrdinary_of_sameItems_self : ∀ {as : List Scalar},
    sameItems as as = true → areOrdinary as = true
  | [], _ => rfl
  | a :: as, h => by
    simp only [sameItems, Bool.and_eq_true] at h
    simp only [areOrdinary, Bool.and_eq_true]
    exact ⟨isOrdinary_of_same_self h.1, areOrdinary_of_sameItems_self h.2⟩

end

/-- **A value is the same as itself unless it holds a NaN.** -/
theorem same_self_iff {a : Scalar} : a.same a = true ↔ a.isOrdinary = true :=
  ⟨isOrdinary_of_same_self, same_self⟩

mutual

theorem same_symm : ∀ {a b : Scalar}, a.same b = true → b.same a = true
  | uuid _, b, h | text _, b, h | integer _, b, h | timestamp _, b, h => by
    cases b <;> simp_all [same]
  | absent, b, h => by cases b <;> simp_all [same]
  | float _, b, h => by
    cases b with
    | float _ => exact Binary64.same_symm h
    | _ => simp [same] at h
  | json _, b, h => by
    cases b with
    | json _ => exact Json.same_symm h
    | _ => simp [same] at h
  | present a, b, h => by
    cases b with
    | present b => simpa only [same] using same_symm (by simpa only [same] using h)
    | _ => simp [same] at h
  | list as, b, h => by
    cases b with
    | list bs => simpa only [same] using sameItems_symm (by simpa only [same] using h)
    | _ => simp [same] at h

theorem sameItems_symm : ∀ {as bs : List Scalar}, sameItems as bs = true → sameItems bs as = true
  | [], bs, h => by cases bs <;> simp_all [sameItems]
  | a :: as, bs, h => by
    cases bs with
    | nil => simp [sameItems] at h
    | cons b bs =>
      simp only [sameItems, Bool.and_eq_true] at h ⊢
      exact ⟨same_symm h.1, sameItems_symm h.2⟩

end

mutual

theorem same_trans : ∀ {a b c : Scalar}, a.same b = true → b.same c = true → a.same c = true
  | uuid _, b, c, h, h' | text _, b, c, h, h' | integer _, b, c, h, h'
  | timestamp _, b, c, h, h' => by cases b <;> cases c <;> simp_all [same]
  | absent, b, c, h, h' => by cases b <;> cases c <;> simp_all [same]
  | float _, b, c, h, h' => by
    cases b <;> cases c <;> first | exact Binary64.same_trans h h' | simp_all [same]
  | json _, b, c, h, h' => by
    cases b <;> cases c <;> first | exact Json.same_trans h h' | simp_all [same]
  | present a, b, c, h, h' => by
    cases b with
    | present b =>
      cases c with
      | present c =>
        simp only [same] at h h' ⊢
        exact same_trans h h'
      | _ => simp [same] at h'
    | _ => simp [same] at h
  | list as, b, c, h, h' => by
    cases b with
    | list bs =>
      cases c with
      | list cs =>
        simp only [same] at h h' ⊢
        exact sameItems_trans h h'
      | _ => simp [same] at h'
    | _ => simp [same] at h

theorem sameItems_trans : ∀ {as bs cs : List Scalar},
    sameItems as bs = true → sameItems bs cs = true → sameItems as cs = true
  | [], bs, cs, h, h' => by cases bs <;> cases cs <;> simp_all [sameItems]
  | a :: as, bs, cs, h, h' => by
    cases bs with
    | nil => simp [sameItems] at h
    | cons b bs =>
      cases cs with
      | nil => simp [sameItems] at h'
      | cons c cs =>
        simp only [sameItems, Bool.and_eq_true] at h h' ⊢
        exact ⟨same_trans h.1 h'.1, sameItems_trans h.2 h'.2⟩

end

/-- What is the same as a value can stand for it. -/
theorem same_congr {a b c : Scalar} (h : b.same c = true) : a.same b = a.same c :=
  Bool.eq_iff_iff.2 ⟨fun hab => same_trans hab h, fun hac => same_trans hac (same_symm h)⟩

end Scalar

end ItemClient
