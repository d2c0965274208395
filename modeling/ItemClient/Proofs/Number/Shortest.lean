import ItemClient.Number.Shortest
import ItemClient.Proofs.Number.Conversion

/-!
# The shortest decimal reads back

A decimal in the interval around a double is rounded to this double (`Near.rounds`). The interval
reaches half a unit to either side, but only a quarter below a power of two, where the doubles are
twice as dense; there the unit is halved.

**The search ends.** On a grid of `g` one of the two neighbours of a magnitude is off by `g / 2` at
most. With seventeen places this is less than a quarter of the unit at a power of two and less than
half of it elsewhere (`half_grid_lt`), so this neighbour lies in the interval.

Main result: `rounds_shortest`.
-/

namespace ItemClient

/-- The number that a decimal stands for. -/
def Decimal.value (d : Decimal) : ℚ := d.digits * 10 ^ d.exponent

namespace Binary64

variable {x : Binary64} {q : ℚ} {n num den' : ℕ} {e : ℤ} {d : Decimal}

/-! ## The interval around a double -/

/-- How many quarters of a unit the interval reaches down. -/
def reach (x : Binary64) : ℕ := if x.fraction = 0 ∧ 1 < x.exponent then 1 else 2

/-- The lower end of the interval. -/
def lower (x : Binary64) : ℚ := x.magnitude - x.reach / 4 * 2 ^ x.power

/-- The upper end of the interval. -/
def upper (x : Binary64) : ℚ := x.magnitude + 1 / 2 * 2 ^ x.power

/-- A magnitude lies in the interval around a double. The ends belong to it when the coefficient is
even. -/
structure Near (x : Binary64) (q : ℚ) : Prop where
  lower_le : x.lower ≤ q
  le_upper : q ≤ x.upper
  inside : x.coefficient % 2 = 1 → x.lower < q ∧ q < x.upper

theorem coefficient_pos (hx : x.isZero = false) : 1 ≤ x.coefficient := by
  simp only [isZero, Bool.and_eq_false_iff, decide_eq_false_iff_not] at hx
  unfold coefficient
  split <;> omega

theorem coefficient_of_reach (h : x.reach = 1) : x.coefficient = 2 ^ 52 ∧ -1074 < x.power := by
  unfold reach at h
  split_ifs at h with hshort
  · unfold coefficient power
    rw [if_neg (by omega), if_neg (by omega)]
    omega
  · omega

theorem lt_coefficient_of_reach (h : x.reach = 2) (hp : -1074 < x.power) :
    2 ^ 52 < x.coefficient := by
  unfold reach at h
  unfold power at hp
  unfold coefficient
  split_ifs at h hp ⊢ <;> omega

theorem reach_eq (x : Binary64) : x.reach = 1 ∨ x.reach = 2 := by
  unfold reach
  split <;> simp

/-- The interval as it is computed: over one denominator, in quarters of a unit. -/
theorem around_eq (x : Binary64) : ∃ up down : ℕ, 0 < up ∧ 0 < down ∧
    (up : ℚ) / down = 2 ^ x.power / 4 ∧ Interval.around x =
      { low := (4 * x.coefficient - x.reach) * up, middle := 4 * x.coefficient * up,
        high := (4 * x.coefficient + 2) * up, den := down, closed := x.coefficient % 2 = 0 } := by
  have hquarter : (2 : ℚ) ^ (x.power - 2) = 2 ^ x.power / 4 := by
    rw [zpow_sub₀ two_ne_zero]
    norm_num
  by_cases hp : 0 ≤ x.power - 2
  · obtain ⟨k, hk⟩ := Int.eq_ofNat_of_zero_le hp
    refine ⟨2 ^ k, 1, Nat.pow_pos two_pos, one_pos, ?_, ?_⟩
    · rw [← hquarter, hk, zpow_natCast]
      simp
    · simp only [Interval.around, hk]
      rw [if_pos (Int.natCast_nonneg k)]
      rfl
  · obtain ⟨k, hk⟩ := Int.eq_ofNat_of_zero_le (Int.le_of_lt (Int.neg_pos.2 (Int.not_le.1 hp)))
    have hneg : x.power - 2 = -k := by omega
    refine ⟨1, 2 ^ k, one_pos, Nat.pow_pos two_pos, ?_, ?_⟩
    · rw [← hquarter, hneg, zpow_neg, zpow_natCast]
      simp
    · simp only [Interval.around]
      rw [if_neg hp, hk]
      rfl

theorem around_pos (hx : x.isZero = false) :
    0 < (Interval.around x).middle ∧ 0 < (Interval.around x).den := by
  obtain ⟨up, down, hup, hdown, -, heq⟩ := around_eq x
  have hc := coefficient_pos hx
  rw [heq]
  exact ⟨Nat.mul_pos (by omega) hup, hdown⟩

theorem middle_div_den (x : Binary64) :
    ((Interval.around x).middle : ℚ) / (Interval.around x).den = x.magnitude := by
  obtain ⟨up, down, -, -, hunit, heq⟩ := around_eq x
  rw [heq, magnitude]
  push_cast
  rw [mul_div_assoc, hunit]
  ring

theorem div_le_div_natCast {a b c d : ℕ} (hb : 0 < b) (hd : 0 < d) :
    (a : ℚ) / b ≤ c / d ↔ a * d ≤ c * b := by
  rw [div_le_div_iff₀ (by exact_mod_cast hb) (by exact_mod_cast hd)]
  norm_cast

theorem div_lt_div_natCast {a b c d : ℕ} (hb : 0 < b) (hd : 0 < d) :
    (a : ℚ) / b < c / d ↔ a * d < c * b := by
  rw [div_lt_div_iff₀ (by exact_mod_cast hb) (by exact_mod_cast hd)]
  norm_cast

/-- Testing a quotient of two integers is asking whether it lies in the interval. -/
theorem holds_iff (hx : x.isZero = false) (hden : 0 < den') :
    (Interval.around x).holds num den' = true ↔ x.Near (num / den') := by
  obtain ⟨up, down, hup, hdown, hunit, heq⟩ := around_eq x
  have hc := coefficient_pos hx
  have hreach : x.reach ≤ 4 * x.coefficient := by
    rcases x.reach_eq with h | h <;> omega
  have hlow : x.lower = ((4 * x.coefficient - x.reach) * up : ℕ) / down := by
    push_cast [Nat.cast_sub hreach]
    rw [mul_div_assoc, hunit, lower, magnitude]
    ring
  have hhigh : x.upper = ((4 * x.coefficient + 2) * up : ℕ) / down := by
    push_cast
    rw [mul_div_assoc, hunit, upper, magnitude]
    ring
  have hnear : x.Near (num / den') ↔ (x.lower ≤ num / den' ∧ num / den' ≤ x.upper) ∧
      (x.coefficient % 2 = 1 → x.lower < num / den' ∧ num / den' < x.upper) :=
    ⟨fun h => ⟨⟨h.lower_le, h.le_upper⟩, h.inside⟩, fun h => ⟨h.1.1, h.1.2, h.2⟩⟩
  rw [hnear, hlow, hhigh, div_le_div_natCast hdown hden, div_le_div_natCast hden hdown,
    div_lt_div_natCast hdown hden, div_lt_div_natCast hden hdown, heq, Interval.holds]
  by_cases heven : x.coefficient % 2 = 0
  · simp [heven]
  · have hodd : x.coefficient % 2 = 1 := by omega
    simp only [hodd, one_ne_zero, decide_false, Bool.false_eq_true, if_false, Bool.and_eq_true,
      decide_eq_true_eq, forall_const]
    exact ⟨fun h => ⟨⟨h.1.le, h.2.le⟩, h⟩, And.right⟩

theorem Near.of_lt (hlow : x.lower < q) (hhigh : q < x.upper) : x.Near q :=
  ⟨hlow.le, hhigh.le, fun _ => ⟨hlow, hhigh⟩⟩

/-! ## What lies in it is rounded to the double -/

theorem power_le_of_finite (hx : x.isFinite = true) : x.power ≤ 971 := by
  simp only [isFinite, decide_eq_true_eq] at hx
  unfold power
  split <;> omega

/-- The greatest double has an odd coefficient, so no interval reaches the limit. -/
theorem Near.lt_limit (h : x.Near q) (hx : x.isFinite = true) : q < limit := by
  have hunit : (2 : ℚ) ^ x.power ≤ 2 ^ (971 : ℤ) :=
    zpow_le_zpow_right₀ one_le_two (power_le_of_finite hx)
  have hupper : x.upper = (x.coefficient + 1 / 2) * 2 ^ x.power := by
    rw [upper, magnitude]
    ring
  have hlast : ((2 : ℚ) ^ 53 - 1 / 2) * 2 ^ x.power ≤ limit :=
    mul_le_mul_of_nonneg_left hunit (by norm_num)
  have hc := x.coefficient_lt
  refine lt_of_lt_of_le ?_ hlast
  by_cases hodd : x.coefficient % 2 = 1
  · have hle : (x.coefficient : ℚ) + 1 ≤ 2 ^ 53 := by exact_mod_cast hc
    refine lt_of_lt_of_le (h.inside hodd).2 ?_
    rw [hupper]
    exact mul_le_mul_of_nonneg_right (by linarith) (zpow_pos two_pos _).le
  · have hle : (x.coefficient : ℚ) + 2 ≤ 2 ^ 53 := by
      exact_mod_cast (by omega : x.coefficient + 2 ≤ 2 ^ 53)
    refine lt_of_le_of_lt h.le_upper ?_
    rw [hupper]
    exact mul_lt_mul_of_pos_right (by linarith) (zpow_pos two_pos _)

/-- The distance in units is a half at most, and less when the coefficient is odd. -/
theorem Near.units (h : x.Near q) :
    x.coefficient - x.reach / 4 ≤ q / 2 ^ x.power ∧ q / 2 ^ x.power ≤ x.coefficient + 1 / 2 ∧
      (x.coefficient % 2 = 1 →
        x.coefficient - x.reach / 4 < q / 2 ^ x.power ∧ q / 2 ^ x.power < x.coefficient + 1 / 2) := by
  have hunit : (0 : ℚ) < 2 ^ x.power := zpow_pos two_pos _
  obtain ⟨hlow, hhigh, hinside⟩ := h
  rw [lower, magnitude, ← sub_mul] at hlow hinside
  rw [upper, magnitude, ← add_mul] at hhigh hinside
  refine ⟨(le_div_iff₀ hunit).2 hlow, (div_le_iff₀ hunit).2 hhigh, fun hodd => ?_⟩
  exact ⟨(lt_div_iff₀ hunit).2 (hinside hodd).1, (div_lt_iff₀ hunit).2 (hinside hodd).2⟩

theorem reach_div_le (x : Binary64) : (x.reach : ℚ) / 4 ≤ 1 / 2 := by
  rcases x.reach_eq with h | h <;> rw [h] <;> norm_num

/-- Unless the magnitude lies below a power of two, the units are those of the double. -/
theorem Near.grid (h : x.Near q)
    (hnormal : -1074 < x.power → (2 : ℚ) ^ 52 ≤ q / 2 ^ x.power) :
    Grid q x.power x.coefficient := by
  obtain ⟨hlow, hhigh, hinside⟩ := h.units
  have hreach := x.reach_div_le
  refine ⟨x.power_ge, hnormal, abs_le.2 ⟨by linarith, by linarith⟩, fun htie => ?_⟩
  by_contra hodd
  obtain ⟨hlow, hhigh⟩ := hinside (by omega)
  have hless : |(x.coefficient : ℚ) - q / 2 ^ x.power| < 1 / 2 :=
    abs_lt.2 ⟨by linarith, by linarith⟩
  exact hless.ne htie

/-- Below a power of two, the units are half of those of the double. -/
theorem Near.grid_below (h : x.Near q) (hp : -1074 < x.power)
    (hbelow : q / 2 ^ x.power < 2 ^ 52) :
    x.coefficient = 2 ^ 52 ∧ Grid q (x.power - 1) (2 ^ 53) := by
  obtain ⟨hlow, -, -⟩ := h.units
  obtain hreach | hreach := x.reach_eq
  · obtain ⟨hc, -⟩ := coefficient_of_reach hreach
    rw [hc, hreach] at hlow
    have hunits : q / 2 ^ (x.power - 1) = 2 * (q / 2 ^ x.power) := by
      rw [zpow_sub_one₀ two_ne_zero]
      field_simp
    push_cast at hlow
    refine ⟨hc, by omega, fun _ => ?_, ?_, fun _ => by norm_num⟩ <;> rw [hunits]
    · linarith
    · push_cast
      exact abs_le.2 ⟨by linarith, by linarith⟩
  · have hlt : (2 : ℚ) ^ 52 + 1 ≤ x.coefficient := by
      exact_mod_cast lt_coefficient_of_reach hreach hp
    have := x.reach_div_le
    linarith

/-- **What lies in the interval around a double is rounded to it.** -/
theorem Near.rounds (h : x.Near q) (hx : x.isFinite = true) : Rounds x.negative q x := by
  by_cases hnormal : -1074 < x.power → (2 : ℚ) ^ 52 ≤ q / 2 ^ x.power
  · exact ((h.grid hnormal).rounds_iff (h.lt_limit hx) hx rfl id).2 rfl
  · obtain ⟨hp, hbelow⟩ := Classical.not_imp.1 hnormal
    obtain ⟨hc, hgrid⟩ := h.grid_below hp (not_le.1 hbelow)
    have heven : x.coefficient % 2 = 0 := by
      rw [hc]
      norm_num
    refine (hgrid.rounds_iff (h.lt_limit hx) hx ?_ fun _ => heven).2 rfl
    rw [magnitude, hc, zpow_sub_one₀ two_ne_zero]
    push_cast
    ring

/-! ## The neighbours on a grid -/

theorem tens_pos (n : ℕ) (e : ℤ) : 0 < (Interval.tens n e).2 := by
  unfold Interval.tens
  split
  · exact one_pos
  · exact Nat.pow_pos (by norm_num)

theorem tens_div (n : ℕ) (e : ℤ) :
    ((Interval.tens n e).1 : ℚ) / (Interval.tens n e).2 = n * 10 ^ e := by
  unfold Interval.tens
  split
  · rename_i he
    obtain ⟨k, rfl⟩ := Int.eq_ofNat_of_zero_le he
    simp [Nat.pow_eq]
  · rename_i he
    obtain ⟨k, hk⟩ := Int.eq_ofNat_of_zero_le (Int.le_of_lt (Int.neg_pos.2 (Int.not_le.1 he)))
    obtain rfl : e = -k := by omega
    simp [Nat.pow_eq, div_eq_mul_inv]

/-- A multiple of a power of ten lies in the interval. -/
def Hits (x : Binary64) (n : ℕ) (e : ℤ) : Prop :=
  (Interval.around x).holds (Interval.tens n e).1 (Interval.tens n e).2 = true

theorem hits_iff (hx : x.isZero = false) : x.Hits n e ↔ x.Near (n * 10 ^ e) := by
  rw [Hits, holds_iff hx (tens_pos n e), tens_div]

/-- The lower neighbour of a double on the grid of multiples of a power of ten. -/
def gridFloor (x : Binary64) (e : ℤ) : ℕ :=
  (Interval.around x).middle * (Interval.tens 1 e).2 /
    ((Interval.around x).den * (Interval.tens 1 e).1)

theorem tens_one_pos (e : ℤ) : 0 < (Interval.tens 1 e).1 := by
  unfold Interval.tens
  split
  · exact Nat.mul_pos one_pos (Nat.pow_pos (by norm_num))
  · exact one_pos

theorem gridFloor_le (hx : x.isZero = false) (e : ℤ) :
    (x.gridFloor e : ℚ) * 10 ^ e ≤ x.magnitude ∧
      x.magnitude < (x.gridFloor e + 1 : ℕ) * 10 ^ e := by
  have hden : 0 < (Interval.around x).den * (Interval.tens 1 e).1 :=
    Nat.mul_pos (around_pos hx).2 (tens_one_pos e)
  have hd : (0 : ℚ) < ((Interval.around x).den * (Interval.tens 1 e).1 : ℕ) := by
    exact_mod_cast hden
  have hgrid : (0 : ℚ) < 10 ^ e := zpow_pos (by norm_num) _
  have hquotient : x.magnitude / 10 ^ e =
      ((Interval.around x).middle * (Interval.tens 1 e).2 : ℕ) /
        ((Interval.around x).den * (Interval.tens 1 e).1 : ℕ) := by
    have hten := tens_div 1 e
    rw [Nat.cast_one, one_mul] at hten
    rw [← middle_div_den, ← hten, div_div_div_eq]
    push_cast
    rfl
  rw [← le_div_iff₀ hgrid, ← div_lt_iff₀ hgrid, hquotient, le_div_iff₀ hd, div_lt_iff₀ hd]
  constructor
  · exact_mod_cast Nat.div_mul_le_self _ _
  · exact_mod_cast Nat.lt_mul_of_div_lt (Nat.lt_succ_self _) hden

theorem onGrid?_eq_some (h : (Interval.around x).onGrid? e = some d) :
    d.exponent = e ∧ x.Hits d.digits e := by
  unfold Interval.onGrid? at h
  dsimp only at h
  split at h <;> cases h
  · rename_i hfloor hnext
    refine ⟨rfl, ?_⟩
    dsimp only
    split
    · exact hfloor
    · exact hnext
  · rename_i hfloor _
    exact ⟨rfl, hfloor⟩
  · rename_i _ hnext
    exact ⟨rfl, hnext⟩

/-- Where there is none on a grid, neither neighbour lies in the interval. -/
theorem onGrid?_eq_none (h : (Interval.around x).onGrid? e = none) :
    ¬x.Hits (x.gridFloor e) e ∧ ¬x.Hits (x.gridFloor e + 1) e := by
  unfold Interval.onGrid? at h
  dsimp only at h
  split at h <;> cases h
  rename_i hfloor hnext
  exact ⟨Bool.eq_false_iff.1 hfloor, Bool.eq_false_iff.1 hnext⟩

/-! ## Seventeen places -/

/-- A grid that is finer than seventeen places has half of its width left in the interval. -/
theorem half_grid_lt (x : Binary64) (e : ℤ) (h : (10 : ℚ) ^ e * 10 ^ 16 ≤ x.magnitude) :
    (10 : ℚ) ^ e / 2 < x.reach / 4 * 2 ^ x.power := by
  have hunit : (0 : ℚ) < 2 ^ x.power := zpow_pos two_pos _
  rw [magnitude] at h
  obtain hreach | hreach := x.reach_eq <;> rw [hreach]
  · rw [(coefficient_of_reach hreach).1] at h
    push_cast at h ⊢
    linarith
  · have hc : (x.coefficient : ℚ) * 2 ^ x.power ≤ 2 ^ 53 * 2 ^ x.power := by
      refine mul_le_mul_of_nonneg_right ?_ hunit.le
      exact_mod_cast x.coefficient_lt.le
    push_cast
    linarith

/-- **On such a grid one of the neighbours lies in the interval.** -/
theorem exists_onGrid (hx : x.isZero = false) (h : (10 : ℚ) ^ e * 10 ^ 16 ≤ x.magnitude) :
    ∃ d, (Interval.around x).onGrid? e = some d := by
  by_contra hnone
  obtain ⟨hfloor, hnext⟩ := onGrid?_eq_none
    (Option.eq_none_iff_forall_not_mem.2 fun d hd => hnone ⟨d, hd⟩)
  rw [hits_iff hx] at hfloor hnext
  obtain ⟨hle, hlt⟩ := gridFloor_le hx e
  have hhalf := half_grid_lt x e h
  have hwidth : ((x.gridFloor e + 1 : ℕ) : ℚ) * 10 ^ e = x.gridFloor e * 10 ^ e + 10 ^ e := by
    push_cast
    ring
  have hsides : (x.reach : ℚ) / 4 * 2 ^ x.power ≤ 1 / 2 * 2 ^ x.power :=
    mul_le_mul_of_nonneg_right x.reach_div_le (zpow_pos two_pos _).le
  have hgrid : (0 : ℚ) < 10 ^ e := zpow_pos (by norm_num) _
  by_cases hnear : x.magnitude - x.gridFloor e * 10 ^ e ≤ 10 ^ e / 2
  · refine hfloor (.of_lt ?_ ?_)
    · rw [lower]
      linarith
    · rw [upper]
      linarith
  · refine hnext (.of_lt ?_ ?_)
    · rw [lower]
      linarith
    · rw [upper]
      linarith

/-- The place of the first digit. -/
theorem pow_places_le (hx : x.isZero = false) :
    (10 : ℚ) ^ ((Interval.around x).places - 1) ≤ x.magnitude := by
  obtain ⟨hmiddle, hden⟩ := around_pos hx
  have hd : (0 : ℚ) < (Interval.around x).den := by exact_mod_cast hden
  rw [← middle_div_den, le_div_iff₀ hd]
  generalize Interval.around x = i at hmiddle hden ⊢
  unfold Interval.places
  dsimp only
  split_ifs with hge hexact
  · have hne : i.middle / i.den ≠ 0 := (Nat.div_pos hge hden).ne'
    have hlength : (10 : ℚ) ^ (Nat.toDigits 10 (i.middle / i.den)).length ≤
        10 * (i.middle / i.den : ℕ) := by
      exact_mod_cast pow_length_le hne
    have hfloor : ((i.middle / i.den : ℕ) : ℚ) * i.den ≤ i.middle := by
      exact_mod_cast Nat.div_mul_le_self _ _
    rw [zpow_sub_one₀ (by norm_num), zpow_natCast]
    calc _ ≤ 10 * ((i.middle / i.den : ℕ) : ℚ) * 10⁻¹ * i.den := by gcongr
      _ = (i.middle / i.den : ℕ) * i.den := by ring
      _ ≤ i.middle := hfloor
  all_goals
    have hk : 0 < (Nat.toDigits 10 (i.den / i.middle)).length := Nat.length_toDigits_pos
    have hlength := lt_pow_length (i.den / i.middle)
    generalize (Nat.toDigits 10 (i.den / i.middle)).length = k at hk hlength hexact ⊢
  · have hpower : (2 - k - 1 : ℤ) = -(k - 1 : ℕ) := by omega
    rw [hpower, zpow_neg, zpow_natCast, inv_mul_le_iff₀ (by positivity), mul_comm]
    exact_mod_cast hexact.ge
  · have hpower : (1 - k - 1 : ℤ) = -(k : ℤ) := by omega
    rw [hpower, zpow_neg, zpow_natCast, inv_mul_le_iff₀ (by positivity)]
    exact_mod_cast (Nat.lt_mul_of_div_lt hlength hmiddle).le

/-- **The search ends**: what it finds lies in the interval. -/
theorem hits_shortest (hx : x.isZero = false) : x.Hits x.shortest.digits x.shortest.exponent := by
  have hlast : (10 : ℚ) ^ ((Interval.around x).places - ((16 : ℕ) + 1)) * 10 ^ 16 ≤
      x.magnitude := by
    rw [← zpow_natCast, ← zpow_add₀ (by norm_num)]
    convert pow_places_le hx using 2
    push_cast
    ring
  obtain ⟨d, hd⟩ := exists_onGrid hx hlast
  unfold shortest
  dsimp only
  cases hfind : (List.range 17).findSome? fun (n : ℕ) =>
      (Interval.around x).onGrid? ((Interval.around x).places - (n + 1)) with
  | none =>
    have := List.findSome?_eq_none_iff.1 hfind 16 (by simp)
    rw [hd] at this
    cases this
  | some found =>
    obtain ⟨n, -, hn⟩ := List.exists_of_findSome?_eq_some hfind
    obtain ⟨hexponent, hhits⟩ := onGrid?_eq_some hn
    rw [← hexponent] at hhits
    exact hhits

theorem shortest_digits_ne_zero (hx : x.isZero = false) : x.shortest.digits ≠ 0 := by
  intro hzero
  have hlow := ((hits_iff hx).1 (hits_shortest hx)).lower_le
  have hunit : (0 : ℚ) < 2 ^ x.power := zpow_pos two_pos _
  have hc : (1 : ℚ) ≤ x.coefficient := by exact_mod_cast coefficient_pos hx
  have hpos : (0 : ℚ) < (x.coefficient - x.reach / 4) * 2 ^ x.power :=
    mul_pos (by linarith [x.reach_div_le]) hunit
  rw [hzero, Nat.cast_zero, zero_mul, lower, magnitude, ← sub_mul] at hlow
  linarith

/-- **The shortest decimal of a double is rounded to it.** -/
theorem rounds_shortest (hx : x.isZero = false) (hfinite : x.isFinite = true) :
    Rounds x.negative x.shortest.value x :=
  ((hits_iff hx).1 (hits_shortest hx)).rounds hfinite

end Binary64

end ItemClient
