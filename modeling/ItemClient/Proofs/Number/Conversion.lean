import ItemClient.Proofs.Number.Rounding

/-!
# Conversion to doubles

A quotient of two integers, or a decimal, is converted to the nearest double (`ofRatio_eq_iff`,
`ofDecimal_eq_iff`), and to no finite double exactly when it has none.

The logarithms of the two integers leave two powers of two for the unit; dividing once tells which
is right, and where that is less than the least power the least is taken (`unitPower`). On this
grid the quotient is rounded to an integer, half to even.
-/

namespace ItemClient.Binary64

variable {num den : ℕ} {p : ℤ} {negative : Bool} {x : Binary64}

/-! ## Division -/

theorem scaled_pos (num : ℕ) (hden : 0 < den) (p : ℤ) : 0 < (scaled num den p).2 := by
  unfold scaled
  split
  · exact Nat.mul_pos hden (Nat.pow_pos two_pos)
  · exact hden

theorem scaled_div (num : ℕ) (den : ℕ) (p : ℤ) :
    ((scaled num den p).1 : ℚ) / (scaled num den p).2 = num / den / 2 ^ p := by
  unfold scaled
  split
  · rename_i hp
    obtain ⟨k, rfl⟩ := Int.eq_ofNat_of_zero_le hp
    simp [Nat.pow_eq, div_div]
  · rename_i hp
    obtain ⟨k, hk⟩ := Int.eq_ofNat_of_zero_le (Int.le_of_lt (Int.neg_pos.2 (Int.not_le.1 hp)))
    obtain rfl : p = -k := by omega
    simp [Nat.pow_eq, div_inv_eq_mul, div_mul_eq_mul_div]

theorem roundDiv_half (num : ℕ) (hden : 0 < den) :
    |(roundDiv num den : ℚ) - num / den| < 1 / 2 ∨
      |(roundDiv num den : ℚ) - num / den| = 1 / 2 ∧ roundDiv num den % 2 = 0 := by
  have hd : (0 : ℚ) < den := by exact_mod_cast hden
  have hsplit : (num : ℚ) / den = (num / den : ℕ) + (num % den : ℕ) / den := by
    have hnum : (den : ℚ) * (num / den : ℕ) + (num % den : ℕ) = num := by
      exact_mod_cast Nat.div_add_mod num den
    rw [← hnum]
    field_simp
  have hdown : |((num / den : ℕ) : ℚ) - num / den| = (num % den : ℕ) / den := by
    rw [hsplit, sub_add_cancel_left, abs_neg, abs_of_nonneg (by positivity)]
  have hup : |((num / den + 1 : ℕ) : ℚ) - num / den| = 1 - (num % den : ℕ) / den := by
    have hlt : ((num % den : ℕ) : ℚ) / den < 1 := by
      rw [div_lt_one hd]
      exact_mod_cast Nat.mod_lt num hden
    rw [hsplit, Nat.cast_succ, add_sub_add_left_eq_sub, abs_of_pos (by linarith)]
  unfold roundDiv
  dsimp only
  split_ifs with hless hmore heven
  · rw [hdown, div_lt_div_iff₀ hd two_pos]
    left
    exact_mod_cast (by omega : num % den * 2 < 1 * den)
  · rw [hup]
    left
    have hhalf : 1 / 2 < ((num % den : ℕ) : ℚ) / den := by
      rw [div_lt_div_iff₀ two_pos hd]
      exact_mod_cast (by omega : 1 * den < num % den * 2)
    linarith
  all_goals
    have hhalf : ((num % den : ℕ) : ℚ) / den = 1 / 2 := by
      rw [div_eq_div_iff hd.ne' two_ne_zero]
      exact_mod_cast (by omega : num % den * 2 = 1 * den)
    right
  · exact ⟨hdown.trans hhalf, heven⟩
  · exact ⟨by rw [hup, hhalf]; norm_num, by omega⟩

/-! ## Packing -/

section Packing

variable {c : ℕ}

theorem negative_pack (negative : Bool) (c : ℕ) (p : ℤ) : (pack negative c p).negative = negative := by
  unfold pack
  split_ifs <;> rfl

theorem pack_of_le (negative : Bool) (hc : c < 2 ^ 53) (hshort : c < 2 ^ 52 → p = -1074)
    (hleast : -1074 ≤ p) (hp : p ≤ 971) :
    (pack negative c p).isFinite = true ∧ (pack negative c p).coefficient = c ∧
      (pack negative c p).power = p := by
  unfold pack
  split_ifs with hc' hp'
  · have := hshort (by omega)
    simp only [isFinite, coefficient, power, if_true]
    refine ⟨rfl, by omega, by omega⟩
  · have hne : (p + 1075).toNat ≠ 0 := by omega
    simp only [isFinite, coefficient, power, if_neg hne, decide_eq_true_eq]
    refine ⟨hp', by omega, by omega⟩
  · omega

theorem pack_of_lt (hc : 2 ^ 52 ≤ c) (hp : 971 < p) : (pack negative c p).isFinite = false := by
  unfold pack
  rw [if_neg (by omega), dif_neg (by omega)]
  rfl

end Packing

/-! ## The unit -/

/-- The first guess at the power of the unit: right, or less by one. -/
def guessPower (num den : ℕ) : ℤ := (num.log2 : ℤ) - den.log2 - 53

/-- The power of the unit in which a quotient is rounded. -/
def unitPower (num den : ℕ) : ℤ :=
  let (n, d) := scaled num den (guessPower num den)
  max (if n / d < 0x20000000000000 then guessPower num den else guessPower num den + 1) (-1074)

/-- A quotient in whole units, rounded. -/
def roundedUnits (num den : ℕ) : ℕ :=
  let (n, d) := scaled num den (unitPower num den)
  roundDiv n d

theorem ofRatio_eq (hnum : 0 < num) (hden : 0 < den) :
    ofRatio negative num den =
      if roundedUnits num den = 2 ^ 53 then pack negative (2 ^ 52) (unitPower num den + 1)
      else pack negative (roundedUnits num den) (unitPower num den) := by
  rw [ofRatio, if_neg (not_or.2 ⟨hnum.ne', hden.ne'⟩)]
  rfl

theorem guessPower_bounds (hnum : 0 < num) (hden : 0 < den) :
    (2 : ℚ) ^ 52 < num / den / 2 ^ guessPower num den ∧
      (num : ℚ) / den / 2 ^ guessPower num den < 2 ^ 54 := by
  have hd : (0 : ℚ) < den := by exact_mod_cast hden
  have hnumLow : (2 : ℚ) ^ num.log2 ≤ num := by exact_mod_cast Nat.log2_self_le hnum.ne'
  have hnumHigh : (num : ℚ) < 2 * 2 ^ num.log2 := by
    rw [← pow_succ']
    exact_mod_cast Nat.lt_log2_self
  have hdenLow : (2 : ℚ) ^ den.log2 ≤ den := by exact_mod_cast Nat.log2_self_le hden.ne'
  have hdenHigh : (den : ℚ) < 2 * 2 ^ den.log2 := by
    rw [← pow_succ']
    exact_mod_cast Nat.lt_log2_self
  have hunit : (2 : ℚ) ^ guessPower num den = 2 ^ num.log2 / 2 ^ den.log2 / 2 ^ 53 := by
    rw [guessPower, zpow_sub₀ two_ne_zero, zpow_sub₀ two_ne_zero, zpow_natCast, zpow_natCast]
    rfl
  have hlow : 1 ≤ (den : ℚ) / 2 ^ den.log2 := by rwa [one_le_div (by positivity)]
  have hhigh : (den : ℚ) / 2 ^ den.log2 < 2 := by rwa [div_lt_iff₀ (by positivity)]
  have hscale : (den : ℚ) * (2 ^ num.log2 / 2 ^ den.log2 / 2 ^ 53) =
      den / 2 ^ den.log2 * 2 ^ num.log2 / 2 ^ 53 := by ring
  rw [hunit, div_div, lt_div_iff₀ (by positivity), div_lt_iff₀ (by positivity), hscale]
  constructor
  · calc (2 : ℚ) ^ 52 * (den / 2 ^ den.log2 * 2 ^ num.log2 / 2 ^ 53)
        = den / 2 ^ den.log2 * 2 ^ num.log2 / 2 := by ring
      _ < 2 * 2 ^ num.log2 / 2 := by gcongr
      _ = 2 ^ num.log2 := by ring
      _ ≤ num := hnumLow
  · calc (num : ℚ) < 2 * 2 ^ num.log2 := hnumHigh
      _ = 2 ^ 54 * (1 * 2 ^ num.log2 / 2 ^ 53) := by ring
      _ ≤ 2 ^ 54 * (den / 2 ^ den.log2 * 2 ^ num.log2 / 2 ^ 53) := by gcongr

/-- In units a quotient is less than `2 ^ 53`, and no less than `2 ^ 52` unless the power is the
least. -/
theorem unitPower_bounds (hnum : 0 < num) (hden : 0 < den) :
    (-1074 < unitPower num den → (2 : ℚ) ^ 52 ≤ num / den / 2 ^ unitPower num den) ∧
      (num : ℚ) / den / 2 ^ unitPower num den < 2 ^ 53 := by
  obtain ⟨hlow, hhigh⟩ := guessPower_bounds hnum hden
  have hd := scaled_pos num hden (guessPower num den)
  have hguess : (scaled num den (guessPower num den)).1 / (scaled num den (guessPower num den)).2 <
      0x20000000000000 ↔ (num : ℚ) / den / 2 ^ guessPower num den < 2 ^ 53 := by
    rw [← scaled_div, Nat.div_lt_iff_lt_mul hd, div_lt_iff₀ (by exact_mod_cast hd)]
    norm_cast
  -- The power that leaves 53 bits, which may be less than the least.
  obtain ⟨p, hp, hplow, hphigh⟩ : ∃ p, unitPower num den = max p (-1074) ∧
      (2 : ℚ) ^ 52 ≤ num / den / 2 ^ p ∧ (num : ℚ) / den / 2 ^ p < 2 ^ 53 := by
    refine ⟨_, rfl, ?_⟩
    split_ifs with hsmall
    · exact ⟨hlow.le, hguess.1 hsmall⟩
    · have hlarge : (2 : ℚ) ^ 53 ≤ num / den / 2 ^ guessPower num den :=
        not_lt.1 (fun h => hsmall (hguess.2 h))
      rw [zpow_add_one₀ two_ne_zero, ← div_div]
      constructor
      · linarith
      · linarith
  rw [hp]
  rcases le_total (-1074) p with hle | hle
  · rw [max_eq_left hle]
    exact ⟨fun _ => hplow, hphigh⟩
  · rw [max_eq_right hle]
    refine ⟨fun h => absurd h (lt_irrefl _), lt_of_le_of_lt ?_ hphigh⟩
    gcongr
    norm_num

/-- **A quotient is rounded on the grid.** -/
theorem grid_unitPower (hnum : 0 < num) (hden : 0 < den) :
    Grid (num / den) (unitPower num den) (roundedUnits num den) := by
  have hround := roundDiv_half (scaled num den (unitPower num den)).1
    (scaled_pos num hden (unitPower num den))
  rw [scaled_div] at hround
  refine ⟨le_max_right _ _, (unitPower_bounds hnum hden).1, ?_, ?_⟩
  · exact hround.elim le_of_lt fun h => h.1.le
  · intro heq
    exact hround.elim (fun h => absurd heq h.ne) And.right

/-! ## Quotients -/

/-- The double of a whole number of units. -/
theorem packed_units {q : ℚ} {r : ℕ} (h : Grid q p r) (hlt : q / 2 ^ p < 2 ^ 53)
    (hlimit : q < limit) (negative : Bool) :
    let z := if r = 2 ^ 53 then pack negative (2 ^ 52) (p + 1) else pack negative r p
    z.negative = negative ∧ z.isFinite = true ∧ z.magnitude = r * 2 ^ p ∧
      (r % 2 = 0 → z.coefficient % 2 = 0) := by
  obtain ⟨hp, hcarry⟩ := h.power_le hlimit
  have hle := h.units_le hlt
  have hleast := h.least
  dsimp only
  split_ifs with hr
  · have := hcarry hr
    obtain ⟨hfinite, hcoefficient, hpower⟩ :=
      pack_of_le negative (c := 2 ^ 52) (p := p + 1) (by norm_num) (by norm_num) (by omega)
        (by omega)
    refine ⟨negative_pack _ _ _, hfinite, ?_, fun _ => by rw [hcoefficient]; norm_num⟩
    rw [magnitude, hcoefficient, hpower, hr, zpow_add_one₀ two_ne_zero]
    push_cast
    ring
  · have hshort : r < 2 ^ 52 → p = -1074 := by
      intro hshort
      by_contra hne
      have := h.le_units (by omega)
      omega
    obtain ⟨hfinite, hcoefficient, hpower⟩ :=
      pack_of_le negative (by omega) hshort hleast hp
    refine ⟨negative_pack _ _ _, hfinite, ?_, fun heven => by rw [hcoefficient, heven]⟩
    rw [magnitude, hcoefficient, hpower]

theorem packed_units_of_limit {q : ℚ} {r : ℕ} (h : Grid q p r) (hlt : q / 2 ^ p < 2 ^ 53)
    (hlimit : limit ≤ q) (negative : Bool) :
    (if r = 2 ^ 53 then pack negative (2 ^ 52) (p + 1) else pack negative r p).isFinite = false := by
  obtain ⟨hp, hgreater⟩ := h.le_power hlt hlimit
  split_ifs with hr
  · exact pack_of_lt le_rfl (by omega)
  · have := hgreater hr
    exact pack_of_lt (h.le_units (by omega)) (by omega)

/-- **A quotient is converted to the nearest double**, if it has a nearest finite one. -/
theorem ofRatio_eq_iff (hnum : 0 < num) (hden : 0 < den) :
    ofRatio negative num den = x ∧ x.isFinite = true ↔ Rounds negative (num / den) x := by
  have hgrid := grid_unitPower hnum hden
  have hlt := (unitPower_bounds hnum hden).2
  rw [ofRatio_eq hnum hden]
  rcases lt_or_ge ((num : ℚ) / den) limit with hlimit | hlimit
  · obtain ⟨hsign, hfinite, hmagnitude, heven⟩ := packed_units hgrid hlt hlimit negative
    have hiff := hgrid.rounds_iff (y := x) hlimit hfinite hmagnitude heven
    rw [hsign] at hiff
    rw [hiff]
    constructor
    · rintro ⟨rfl, -⟩
      rfl
    · rintro rfl
      exact ⟨rfl, hfinite⟩
  · have hinfinite := packed_units_of_limit hgrid hlt hlimit negative
    constructor
    · rintro ⟨rfl, hfinite⟩
      rw [hinfinite] at hfinite
      cases hfinite
    · exact fun h => absurd h.inRange (not_lt.2 hlimit)

/-! ## Decimals -/

section Decimals

variable {digits : ℕ} {exponent : ℤ}

/-- What is less than half the least double is converted to zero. -/
theorem rounds_zero_iff {q : ℚ} (hnonneg : 0 ≤ q) (hsmall : q < 1 / 2 * 2 ^ (-1074 : ℤ)) :
    Rounds negative q x ↔ x = zero negative := by
  have hlt : q / 2 ^ (-1074 : ℤ) < 1 / 2 := by rwa [div_lt_iff₀ (zpow_pos two_pos _)]
  have habs : |((0 : ℕ) : ℚ) - q / 2 ^ (-1074 : ℤ)| = q / 2 ^ (-1074 : ℤ) := by
    rw [Nat.cast_zero, zero_sub, abs_neg, abs_of_nonneg (by positivity)]
  have hgrid : Grid q (-1074) 0 :=
    ⟨le_rfl, fun h => absurd h (lt_irrefl _), by rw [habs]; exact hlt.le, fun _ => rfl⟩
  have hlimit : q < limit := by
    calc q < 1 / 2 * 2 ^ (-1074 : ℤ) := hsmall
      _ ≤ (2 ^ 53 - 1 / 2) * 2 ^ (971 : ℤ) := by
        gcongr <;> norm_num
  exact hgrid.rounds_iff (x := zero negative) hlimit rfl (by simp [magnitude, coefficient, zero])
    (fun _ => rfl)

theorem two_zpow_le_ten_zpow : (2 : ℚ) ^ (1200 : ℤ) ≤ 10 ^ (400 : ℤ) := by
  calc (2 : ℚ) ^ (1200 : ℤ) = (2 ^ (3 : ℤ)) ^ (400 : ℤ) := by rw [← zpow_mul]; rfl
    _ ≤ 10 ^ (400 : ℤ) := zpow_le_zpow_left₀ (by norm_num) (by norm_num) (by norm_num)

theorem ten_zpow_lt : (10 : ℚ) ^ (-400 : ℤ) < 1 / 2 * 2 ^ (-1074 : ℤ) := by
  calc (10 : ℚ) ^ (-400 : ℤ) ≤ 2 ^ (-1200 : ℤ) := by
        rw [zpow_neg, zpow_neg]
        exact inv_anti₀ (zpow_pos two_pos _) two_zpow_le_ten_zpow
    _ < 2 ^ (-1074 - 1 : ℤ) := zpow_lt_zpow_right₀ one_lt_two (by norm_num)
    _ = 1 / 2 * 2 ^ (-1074 : ℤ) := by
      rw [zpow_sub_one₀ two_ne_zero]
      ring

theorem limit_le : limit ≤ 10 ^ (400 : ℤ) := by
  calc limit ≤ 2 ^ (53 : ℤ) * 2 ^ (971 : ℤ) := by
        unfold limit
        gcongr
        norm_num
    _ = 2 ^ (53 + 971 : ℤ) := (zpow_add₀ two_ne_zero _ _).symm
    _ ≤ 2 ^ (1200 : ℤ) := zpow_le_zpow_right₀ one_le_two (by norm_num)
    _ ≤ 10 ^ (400 : ℤ) := two_zpow_le_ten_zpow

theorem lt_pow_length (digits : ℕ) : digits < 10 ^ (Nat.toDigits 10 digits).length :=
  (Nat.length_toDigits_le_iff (by norm_num) Nat.length_toDigits_pos).1 le_rfl

theorem pow_length_le (h : digits ≠ 0) : 10 ^ (Nat.toDigits 10 digits).length ≤ 10 * digits := by
  obtain ⟨k, hk⟩ : ∃ k, (Nat.toDigits 10 digits).length = k + 1 :=
    Nat.exists_eq_succ_of_ne_zero Nat.length_toDigits_pos.ne'
  rw [hk, pow_succ', Nat.mul_le_mul_left_iff (by norm_num)]
  by_contra hlt
  rcases Nat.eq_zero_or_pos k with rfl | hpos
  · omega
  · have := (Nat.length_toDigits_le_iff (b := 10) (by norm_num) hpos).2 (not_le.1 hlt)
    omega

/-- The length of the digits tells where a decimal lies. -/
theorem decimal_lt (digits : ℕ) (exponent : ℤ) :
    (digits : ℚ) * 10 ^ exponent < 10 ^ ((Nat.toDigits 10 digits).length + exponent) := by
  have hten : (0 : ℚ) < 10 ^ exponent := zpow_pos (by norm_num) _
  have hdigits : (digits : ℚ) < 10 ^ (Nat.toDigits 10 digits).length := by
    exact_mod_cast lt_pow_length digits
  rw [zpow_add₀ (by norm_num), zpow_natCast]
  exact mul_lt_mul_of_pos_right hdigits hten

theorem le_decimal (h : digits ≠ 0) (exponent : ℤ) :
    (10 : ℚ) ^ ((Nat.toDigits 10 digits).length + exponent) ≤ 10 * (digits * 10 ^ exponent) := by
  have hten : (0 : ℚ) < 10 ^ exponent := zpow_pos (by norm_num) _
  have hdigits : (10 : ℚ) ^ (Nat.toDigits 10 digits).length ≤ 10 * digits := by
    exact_mod_cast pow_length_le h
  rw [zpow_add₀ (by norm_num), zpow_natCast, ← mul_assoc]
  exact mul_le_mul_of_nonneg_right hdigits hten.le

/-- **A decimal is converted to the nearest double**, if it has a nearest finite one. -/
theorem ofDecimal_eq_iff :
    ofDecimal negative digits exponent = x ∧ x.isFinite = true ↔
      Rounds negative (digits * 10 ^ exponent) x := by
  unfold ofDecimal
  dsimp only
  split_ifs with hsmall hlarge hexponent
  · have hless : (digits : ℚ) * 10 ^ exponent < 1 / 2 * 2 ^ (-1074 : ℤ) := by
      rcases hsmall with rfl | hsmall
      · rw [Nat.cast_zero, zero_mul]
        positivity
      · have hle : (10 : ℚ) ^ ((Nat.toDigits 10 digits).length + exponent) ≤ 10 ^ (-400 : ℤ) :=
          zpow_le_zpow_right₀ (by norm_num) hsmall.le
        exact (decimal_lt digits exponent).trans (hle.trans_lt ten_zpow_lt)
    rw [rounds_zero_iff (by positivity) hless]
    constructor
    · rintro ⟨rfl, -⟩
      rfl
    · rintro rfl
      exact ⟨rfl, rfl⟩
  · have hlimit : limit ≤ digits * 10 ^ exponent := by
      have hle : (10 : ℚ) ^ (400 + 1 : ℤ) ≤ 10 ^ ((Nat.toDigits 10 digits).length + exponent) :=
        zpow_le_zpow_right₀ (by norm_num) (by omega)
      rw [zpow_add_one₀ (by norm_num)] at hle
      linarith [limit_le, le_decimal (fun hzero => hsmall (.inl hzero)) exponent]
    constructor
    · rintro ⟨rfl, hfinite⟩
      cases hfinite
    · exact fun h => absurd h.inRange (not_lt.2 hlimit)
  all_goals have hpos : 0 < digits := Nat.pos_of_ne_zero fun hzero => hsmall (.inl hzero)
  · obtain ⟨k, rfl⟩ := Int.eq_ofNat_of_zero_le hexponent
    have hnum : 0 < digits * 10 ^ k := Nat.mul_pos hpos (Nat.pow_pos (by norm_num))
    have hratio : ofRatio negative (digits * 10 ^ k) 1 = x ∧ x.isFinite = true ↔ _ :=
      ofRatio_eq_iff hnum one_pos
    simpa using hratio
  · obtain ⟨k, hk⟩ := Int.eq_ofNat_of_zero_le (Int.neg_nonneg_of_nonpos (le_of_not_ge hexponent))
    obtain rfl : exponent = -k := by omega
    have hden : 0 < 10 ^ k := Nat.pow_pos (by norm_num)
    have hratio : ofRatio negative digits (10 ^ k) = x ∧ x.isFinite = true ↔ _ :=
      ofRatio_eq_iff hpos hden
    simpa [div_eq_mul_inv] using hratio

end Decimals

end ItemClient.Binary64
