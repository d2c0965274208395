import Mathlib.Algebra.Order.Field.Power
import Mathlib.Algebra.Order.Field.Rat
import Mathlib.Tactic.FieldSimp
import Mathlib.Tactic.Linarith
import Mathlib.Tactic.NormNum
import Mathlib.Tactic.Positivity
import Mathlib.Tactic.Ring
import ItemClient.Number.Binary64

/-!
# Rounding to nearest

What it means that a double is the nearest to an exact magnitude (`Rounds`), and that there is one
such double at most.

**The grid.** A magnitude `q` is looked at in units of a power of two `2 ^ p` that leaves it less
than 53 bits, and no fewer unless the power is the least. Each finite double is then a whole number
of units or lies below `2 ^ 52` of them, farther from `q` than that number (`exists_unit`). So the
doubles nearest to `q` are found among the integers nearest to `q / 2 ^ p` (`Grid`).
-/

namespace ItemClient.Binary64

/-- The value of a finite double without its sign. -/
def magnitude (x : Binary64) : ℚ := x.coefficient * 2 ^ x.power

/-- Halfway between the greatest finite double and the power of two above it. -/
def limit : ℚ := (2 ^ 53 - 1 / 2) * 2 ^ (971 : ℤ)

/-- A finite double is the nearest to `q` with a sign. Of two that are equally near it is the one
with the even coefficient; and what lies at the limit or beyond has no nearest finite double. -/
structure Rounds (negative : Bool) (q : ℚ) (x : Binary64) : Prop where
  sign : x.negative = negative
  finite : x.isFinite = true
  inRange : q < limit
  nearest : ∀ y : Binary64, y.isFinite = true → |x.magnitude - q| ≤ |y.magnitude - q|
  even : ∀ y : Binary64, y.isFinite = true → |y.magnitude - q| = |x.magnitude - q| →
    y.magnitude = x.magnitude ∨ x.coefficient % 2 = 0

/-! ## Finite doubles -/

section Finite

variable {x y : Binary64}

theorem coefficient_lt (x : Binary64) : x.coefficient < 2 ^ 53 := by
  have := x.fraction_lt
  unfold coefficient
  split <;> omega

theorem power_ge (x : Binary64) : -1074 ≤ x.power := by
  unfold power
  split <;> omega

/-- The coefficient is short only next to zero. -/
theorem coefficient_ge (h : -1074 < x.power) : 2 ^ 52 ≤ x.coefficient := by
  unfold power at h
  unfold coefficient
  split at h <;> split <;> omega

theorem eq_of_coefficient_eq (hsign : x.negative = y.negative) (hc : x.coefficient = y.coefficient)
    (hp : x.power = y.power) : x = y := by
  obtain ⟨negative, exponent, fraction, hexponent, hfraction⟩ := x
  obtain ⟨negative', exponent', fraction', hexponent', hfraction'⟩ := y
  simp only [coefficient, power] at hc hp
  simp only [Binary64.mk.injEq]
  refine ⟨hsign, ?_, ?_⟩ <;> split_ifs at hc hp <;> omega

/-- A sign and a magnitude belong to one finite double at most. -/
theorem eq_of_magnitude_eq (hsign : x.negative = y.negative) (h : x.magnitude = y.magnitude) :
    x = y := by
  wlog hle : x.power ≤ y.power generalizing x y
  · exact (this hsign.symm h.symm (le_of_not_ge hle)).symm
  obtain ⟨k, hk⟩ := Int.le.dest hle
  have hcoefficient : x.coefficient = y.coefficient * 2 ^ k := by
    rw [magnitude, magnitude, ← hk, zpow_add₀ two_ne_zero, zpow_natCast, ← mul_assoc,
      mul_right_comm] at h
    exact_mod_cast mul_right_cancel₀ (zpow_ne_zero x.power two_ne_zero) h
  cases k with
  | zero => exact eq_of_coefficient_eq hsign (by simpa using hcoefficient) (by simpa using hk)
  | succ k =>
    -- The greater power is not the least, so its coefficient is too long to be doubled.
    have hlong : 2 ^ 52 ≤ y.coefficient := coefficient_ge (by have := x.power_ge; omega)
    have hdouble : y.coefficient * 2 ≤ y.coefficient * 2 ^ (k + 1) :=
      Nat.mul_le_mul_left _ (by simpa [pow_succ] using Nat.one_le_two_pow)
    have := x.coefficient_lt
    omega

end Finite

/-! ## The nearest integers -/

section Integers

variable {r m : ℕ} {t : ℚ}

theorem one_le_abs_sub (h : m ≠ r) : 1 ≤ |(m : ℚ) - r| := by
  have hint : (1 : ℤ) ≤ |(m : ℤ) - r| := Int.one_le_abs (sub_ne_zero.2 (by exact_mod_cast h))
  exact_mod_cast hint

/-- An integer within a half is as near as any other. -/
theorem abs_sub_le_of_half (h : |(r : ℚ) - t| ≤ 1 / 2) (m : ℕ) : |(r : ℚ) - t| ≤ |(m : ℚ) - t| := by
  by_cases hm : m = r
  · rw [hm]
  · have htriangle := abs_sub_le (m : ℚ) t r
    rw [abs_sub_comm t] at htriangle
    linarith [one_le_abs_sub hm]

/-- Two integers that are equally near are next to each other, and both are off by a half. -/
theorem half_of_abs_sub_eq (h : |(r : ℚ) - t| ≤ 1 / 2) (hm : m ≠ r)
    (heq : |(m : ℚ) - t| = |(r : ℚ) - t|) : |(r : ℚ) - t| = 1 / 2 ∧ (m = r + 1 ∨ r = m + 1) := by
  have htriangle := abs_sub_le (m : ℚ) t r
  rw [abs_sub_comm t] at htriangle
  have hone := one_le_abs_sub hm
  refine ⟨by linarith, ?_⟩
  have hle : |(m : ℤ) - r| ≤ 1 := by
    have hle : |(m : ℚ) - r| ≤ 1 := by linarith
    exact_mod_cast hle
  have := abs_le.1 hle
  omega

end Integers

/-! ## The grid -/

/-- A power of two of which a magnitude has the right number of units, and the integer nearest to
that number, the even one of two. -/
structure Grid (q : ℚ) (p : ℤ) (r : ℕ) : Prop where
  least : -1074 ≤ p
  normal : -1074 < p → 2 ^ 52 ≤ q / 2 ^ p
  half : |(r : ℚ) - q / 2 ^ p| ≤ 1 / 2
  even : |(r : ℚ) - q / 2 ^ p| = 1 / 2 → r % 2 = 0

namespace Grid

variable {q : ℚ} {p : ℤ} {r : ℕ} {x y : Binary64}

theorem unit_pos (p : ℤ) : (0 : ℚ) < 2 ^ p := zpow_pos two_pos p

/-- Distances from the magnitude, in units. -/
theorem abs_sub_eq (a q : ℚ) (p : ℤ) : |a * 2 ^ p - q| = |a - q / 2 ^ p| * 2 ^ p := by
  rw [← abs_of_pos (unit_pos p), ← abs_mul, abs_of_pos (unit_pos p), sub_mul,
    div_mul_cancel₀ _ (unit_pos p).ne']

/-- A double whose power is no less is a whole number of units, and an even one if its power is
greater. -/
theorem exists_units (hy : p ≤ y.power) :
    ∃ m : ℕ, y.magnitude = m * 2 ^ p ∧ (m % 2 = 1 → m = y.coefficient) := by
  obtain ⟨k, hk⟩ := Int.le.dest hy
  refine ⟨y.coefficient * 2 ^ k, ?_, fun hodd => ?_⟩
  · rw [magnitude, ← hk, zpow_add₀ two_ne_zero, zpow_natCast]
    push_cast
    ring
  · cases k with
    | zero => simp
    | succ k => simp [pow_succ, ← mul_assoc] at hodd

/-- A double whose power is less is too small to be the nearest. -/
theorem abs_sub_lt (h : Grid q p r) (hy : y.power < p) : |r * 2 ^ p - q| < |y.magnitude - q| := by
  have hnormal : (2 : ℚ) ^ 52 ≤ q / 2 ^ p := h.normal (lt_of_le_of_lt y.power_ge hy)
  have hsmall : y.magnitude / 2 ^ p < 2 ^ 52 := by
    rw [div_lt_iff₀ (unit_pos p)]
    have hc : (y.coefficient : ℚ) < 2 ^ 53 := by exact_mod_cast y.coefficient_lt
    calc y.magnitude < 2 ^ 53 * 2 ^ y.power := mul_lt_mul_of_pos_right hc (unit_pos _)
      _ ≤ 2 ^ 53 * 2 ^ (p - 1) := by
        gcongr
        · norm_num
        · omega
      _ = 2 ^ 52 * 2 ^ p := by
        rw [zpow_sub_one₀ two_ne_zero]
        ring
  have hy' : y.magnitude = y.magnitude / 2 ^ p * 2 ^ p := (div_mul_cancel₀ _ (unit_pos p).ne').symm
  rw [hy', abs_sub_eq, abs_sub_eq]
  refine mul_lt_mul_of_pos_right ?_ (unit_pos p)
  have hgrid := abs_sub_le_of_half h.half (2 ^ 52)
  rw [Nat.cast_pow, Nat.cast_ofNat] at hgrid
  rw [abs_of_nonpos (sub_nonpos.2 hnormal)] at hgrid
  have hneg : y.magnitude / 2 ^ p - q / 2 ^ p < 0 := by linarith
  rw [abs_of_neg hneg]
  linarith

theorem nearest (h : Grid q p r) (y : Binary64) : |r * 2 ^ p - q| ≤ |y.magnitude - q| := by
  rcases lt_or_ge y.power p with hy | hy
  · exact (h.abs_sub_lt hy).le
  · obtain ⟨m, hm, -⟩ := exists_units hy
    rw [hm, abs_sub_eq, abs_sub_eq]
    exact mul_le_mul_of_nonneg_right (abs_sub_le_of_half h.half m) (unit_pos p).le

/-- Another double that is equally near has an odd coefficient, next to the even integer. -/
theorem parity (h : Grid q p r) (heq : |y.magnitude - q| = |r * 2 ^ p - q|)
    (hne : y.magnitude ≠ r * 2 ^ p) : r % 2 = 0 ∧ y.coefficient % 2 = 1 := by
  have hy : p ≤ y.power := by
    by_contra hlt
    exact (h.abs_sub_lt (not_le.1 hlt)).ne' heq
  obtain ⟨m, hm, hodd⟩ := exists_units hy
  rw [hm, abs_sub_eq, abs_sub_eq] at heq
  have hmr : m ≠ r := by
    rintro rfl
    exact hne hm
  obtain ⟨hhalf, hnext⟩ := half_of_abs_sub_eq h.half hmr (mul_right_cancel₀ (unit_pos p).ne' heq)
  have hr := h.even hhalf
  have hm2 : m % 2 = 1 := by omega
  exact ⟨hr, hodd hm2 ▸ hm2⟩

/-- **What is nearest on the grid is the nearest double**, and the only one. -/
theorem rounds_iff (h : Grid q p r) (hlimit : q < limit) (hfinite : x.isFinite = true)
    (hx : x.magnitude = r * 2 ^ p) (heven : r % 2 = 0 → x.coefficient % 2 = 0) :
    Rounds x.negative q y ↔ y = x := by
  constructor
  · intro hy
    have heq : |y.magnitude - q| = |x.magnitude - q| :=
      le_antisymm (hy.nearest x hfinite) (hx ▸ h.nearest y)
    by_contra hne
    have hne : y.magnitude ≠ x.magnitude := fun hmagnitude =>
      hne (eq_of_magnitude_eq hy.sign hmagnitude)
    obtain ⟨-, hodd⟩ := h.parity (hx ▸ heq) (hx ▸ hne)
    rcases hy.even x hfinite heq.symm with hmagnitude | hy
    · exact hne hmagnitude.symm
    · omega
  · rintro rfl
    refine ⟨rfl, hfinite, hlimit, fun z _ => hx ▸ h.nearest z, fun z _ heq => ?_⟩
    by_contra hnot
    obtain ⟨hne, hodd⟩ := not_or.1 hnot
    obtain ⟨hr, -⟩ := h.parity (hx ▸ heq) (hx ▸ hne)
    exact hodd (heven hr)

theorem le_units (h : Grid q p r) (hp : -1074 < p) : 2 ^ 52 ≤ r := by
  have hlow := (abs_le.1 h.half).1
  have hnormal := h.normal hp
  have hr : ((2 ^ 52 : ℕ) : ℚ) < r + 1 := by
    rw [Nat.cast_pow, Nat.cast_ofNat]
    linarith
  have : 2 ^ 52 < r + 1 := by exact_mod_cast hr
  omega

theorem units_le (h : Grid q p r) (hlt : q / 2 ^ p < 2 ^ 53) : r ≤ 2 ^ 53 := by
  have hhigh := (abs_le.1 h.half).2
  have hr : (r : ℚ) < (2 ^ 53 + 1 : ℕ) := by
    rw [Nat.cast_add, Nat.cast_pow, Nat.cast_ofNat, Nat.cast_one]
    linarith
  have : r < 2 ^ 53 + 1 := by exact_mod_cast hr
  omega

/-- Below the limit no double is too great. -/
theorem power_le (h : Grid q p r) (hlimit : q < limit) : p ≤ 971 ∧ (r = 2 ^ 53 → p ≤ 970) := by
  have hp : p ≤ 971 := by
    by_contra hlarge
    have hnormal := h.normal (by omega)
    rw [le_div_iff₀ (unit_pos p)] at hnormal
    have hgreat : limit < 2 ^ 52 * 2 ^ p := by
      calc limit < 2 ^ 53 * 2 ^ (971 : ℤ) := by
            unfold limit
            gcongr
            norm_num
        _ = 2 ^ 52 * 2 ^ (971 + 1 : ℤ) := by
          rw [zpow_add_one₀ two_ne_zero]
          ring
        _ ≤ 2 ^ 52 * 2 ^ p := by
          gcongr
          · norm_num
          · omega
    linarith
  refine ⟨hp, fun hr => ?_⟩
  by_contra hlarge
  obtain rfl : p = 971 := by omega
  have hlow := (abs_le.1 h.half).2
  rw [hr, Nat.cast_pow, Nat.cast_ofNat] at hlow
  rw [limit, ← div_lt_iff₀ (unit_pos _)] at hlimit
  linarith

/-- At the limit every double is too small. -/
theorem le_power (h : Grid q p r) (hlt : q / 2 ^ p < 2 ^ 53) (hlimit : limit ≤ q) :
    971 ≤ p ∧ (r ≠ 2 ^ 53 → 972 ≤ p) := by
  have hp : 971 ≤ p := by
    by_contra hsmall
    rw [div_lt_iff₀ (unit_pos p)] at hlt
    have hless : (2 : ℚ) ^ 53 * 2 ^ p ≤ limit := by
      calc (2 : ℚ) ^ 53 * 2 ^ p ≤ 2 ^ 53 * 2 ^ (971 - 1 : ℤ) := by
            gcongr
            · norm_num
            · omega
        _ = 2 ^ 52 * 2 ^ (971 : ℤ) := by
          rw [zpow_sub_one₀ two_ne_zero]
          ring
        _ ≤ limit := by
          unfold limit
          gcongr
          norm_num
    linarith
  refine ⟨hp, fun hr => ?_⟩
  by_contra hsmall
  obtain rfl : p = 971 := by omega
  rw [limit, ← le_div_iff₀ (unit_pos _)] at hlimit
  have hlow := (abs_le.1 h.half).1
  have hbelow : ((2 ^ 53 : ℕ) : ℚ) < r + 2 := by
    rw [Nat.cast_pow, Nat.cast_ofNat]
    linarith
  have hnat : 2 ^ 53 < r + 2 := by exact_mod_cast hbelow
  have hle := h.units_le hlt
  -- What is left is a tie that would have gone to the odd integer.
  have hr : r + 1 = 2 ^ 53 := by omega
  have hcast : (r : ℚ) + 1 = 2 ^ 53 := by exact_mod_cast hr
  have htie : |(r : ℚ) - q / 2 ^ (971 : ℤ)| = 1 / 2 := by
    refine le_antisymm h.half ?_
    rw [abs_sub_comm]
    exact le_trans (by linarith) (le_abs_self _)
  have := h.even htie
  omega

end Grid

end ItemClient.Binary64
