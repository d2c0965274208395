import ItemClient.Proofs.Filter.Language
import ItemClient.Proofs.Json.Lexeme
import ItemClient.Proofs.Number.Shortest

/-!
# Numbers as literals

The text of a number is itself a literal that means this number, if it is the value of a literal at
all (`Literal.numeral`). For an integer this is its digits. For a double it is the layout of the
digits of its shortest decimal: wherever the point stands among them, the text has the value of the
decimal (`floating_positional`, `floating_exponential`), which is rounded to the double again.

A literal has one meaning (`Literal.value_unique`), so the text of a number determines the number,
and with it whether it is an integer or a double.
-/

namespace ItemClient.Filter

open Text Grammar

variable {minus digits ds text : List Char} {negative : Bool} {value value' : Json} {x : Binary64}

/-! ## One meaning -/

/-- **A literal has one meaning.** -/
theorem Grammar.Literal.value_unique (h : Literal text value) (h' : Literal text value') :
    value = value' := by
  have hparse : ∀ {v : Json}, Literal text v →
      Comparison.parse (String.ofList ("x==".toList ++ text)) =
        .ok { path := ["x"], op := .eq, value := v } := by
    intro v hv
    have hnone : Blanks [] := List.forall_mem_nil _
    have hname : Name ['x'] := .mk (by decide) (List.forall_mem_nil _)
    rw [Comparison.parse_eq_ok_iff, String.toList_ofList]
    simpa [CompareOp.symbol] using @Expression.mk [] ['x'] [] [] text [] ["x"] .eq v hnone
      (.last hname) hnone hnone hv hnone
  have heq := (hparse h).symm.trans (hparse h')
  cases heq
  rfl

/-! ## Integers -/

theorem digits_toDigits (n : Nat) : Digits (Nat.toDigits 10 n) :=
  ⟨Nat.toDigits_ne_nil, fun _ => isDigit_of_mem_toDigits⟩

theorem minus_sign (negative : Bool) : Minus (if negative then ['-'] else []) negative := by
  cases negative
  · exact .absent
  · exact .present

/-- An integer by its sign and its digits, as the grammar has it. -/
theorem signed_toDigits (n : Int) :
    (if decide (n < 0) then -(decimalValue (Nat.toDigits 10 n.natAbs) : Int)
      else decimalValue (Nat.toDigits 10 n.natAbs)) = n := by
  simp only [decimalValue_toDigits, decide_eq_true_eq]
  split <;> omega

theorem integer_writeInt (n : Int) : Integer (Json.writeInt n) n := by
  have h := Integer.mk (minus_sign (n < 0)) (digits_toDigits n.natAbs)
  rw [signed_toDigits] at h
  simpa [Json.writeInt] using h

/-! ## The layout of digits -/

theorem isDigit_of_mem_zeros {n : Nat} {c : Char} (h : c ∈ List.replicate n '0') :
    c.isDigit = true := by
  rw [List.eq_of_mem_replicate h]
  rfl

theorem digits_zero : Digits ['0'] := ⟨List.cons_ne_nil _ _, by simp⟩

/-- Digits with a point between them. -/
theorem floating_point {whole fraction : List Char} (hminus : Minus minus negative)
    (hwhole : Digits whole) (hfraction : Digits fraction) :
    Floating (minus ++ (whole ++ '.' :: fraction)) negative
      (decimalValue (whole ++ fraction) * 10 ^ (-(fraction.length : ℤ))) := by
  have h := Floating.mk hminus hwhole (.present hfraction) .absent (.inl (List.cons_ne_nil _ _))
  rw [zero_sub] at h
  simpa using h

/-- Digits with a point somewhere among them, or with zeros up to it. -/
theorem floating_positional (hminus : Minus minus negative) (hdigits : Digits digits) (e : ℤ) :
    Floating (minus ++ Decimal.positional digits e) negative
      (decimalValue digits * 10 ^ (e + 1 - digits.length)) := by
  unfold Decimal.positional
  dsimp only
  split_ifs with he hafter
  · -- The point stands before the digits.
    obtain ⟨z, hz⟩ : ∃ z : ℕ, (-e).toNat - 1 = z := ⟨_, rfl⟩
    have hfraction : Digits (List.replicate z '0' ++ digits) :=
      ⟨by simp [hdigits.ne_nil], fun d hd => (List.mem_append.1 hd).elim isDigit_of_mem_zeros
        (hdigits.digits d)⟩
    have hvalue : decimalValue (['0'] ++ (List.replicate z '0' ++ digits)) = decimalValue digits :=
      decimalValue_zeros_append (z + 1) digits
    have hpower : e + 1 - digits.length = -((List.replicate z '0' ++ digits).length : ℤ) := by
      rw [List.length_append, List.length_replicate]
      omega
    rw [hpower, ← hvalue, hz]
    simpa using floating_point hminus digits_zero hfraction
  · -- It stands behind them.
    have hshort : digits.length ≤ e.toNat + 1 := List.drop_eq_nil_iff.1 hafter
    obtain ⟨z, hz⟩ : ∃ z : ℕ, e.toNat + 1 - digits.length = z := ⟨_, rfl⟩
    have hwhole : Digits (digits ++ List.replicate z '0') :=
      ⟨by simp [hdigits.ne_nil], fun d hd => (List.mem_append.1 hd).elim (hdigits.digits d)
        isDigit_of_mem_zeros⟩
    have hvalue : (decimalValue digits : ℚ) * 10 ^ (e + 1 - digits.length) =
        decimalValue (digits ++ List.replicate z '0' ++ ['0']) * 10 ^ (-1 : ℤ) := by
      have hzeros : List.replicate z '0' ++ ['0'] = List.replicate (z + 1) '0' :=
        List.replicate_succ'.symm
      have hpower : e + 1 - digits.length = (z + 1 : ℕ) + -1 := by omega
      rw [List.append_assoc, hzeros, decimalValue_append_zeros, hpower,
        zpow_add₀ (by norm_num), zpow_natCast]
      push_cast
      ring
    rw [hvalue, List.take_of_length_le hshort, hz]
    simpa using floating_point hminus hwhole digits_zero
  · -- It stands between two of them.
    have hlong : e.toNat + 1 < digits.length := by
      simpa [List.drop_eq_nil_iff] using hafter
    have hlength : (digits.take (e.toNat + 1)).length = e.toNat + 1 :=
      List.length_take_of_le hlong.le
    have hwhole : Digits (digits.take (e.toNat + 1)) :=
      ⟨List.ne_nil_of_length_pos (by omega), fun d hd => hdigits.digits d (List.mem_of_mem_take hd)⟩
    have hfraction : Digits (digits.drop (e.toNat + 1)) :=
      ⟨hafter, fun d hd => hdigits.digits d (List.mem_of_mem_drop hd)⟩
    have h := floating_point hminus hwhole hfraction
    have hpower : e + 1 - digits.length = -((digits.drop (e.toNat + 1)).length : ℤ) := by
      rw [List.length_drop]
      omega
    rw [List.take_append_drop] at h
    rw [hpower, hlength, Nat.sub_self]
    simpa using h

theorem exponent_sign (negative : Bool) : Sign [if negative then '-' else '+'] negative := by
  cases negative
  · exact .plus
  · exact .minus

theorem exponent_text (e : ℤ) :
    Exponent ('e' :: [if e < 0 then '-' else '+'] ++ Nat.toDigits 10 e.natAbs) e := by
  have h := Exponent.present (.inl rfl) (exponent_sign (e < 0)) (digits_toDigits e.natAbs)
  rw [signed_toDigits] at h
  simpa using h

/-- Digits with a point after the first, and a power of ten. -/
theorem floating_exponential (hminus : Minus minus negative) (hdigits : Digits digits) (e : ℤ) :
    Floating (minus ++ Decimal.exponential digits e) negative
      (decimalValue digits * 10 ^ (e + 1 - digits.length)) := by
  obtain ⟨d, tail, rfl, hd⟩ := hdigits.exists_cons
  have hwhole : Digits [d] := ⟨List.cons_ne_nil _ _, by simpa using hd⟩
  have hfraction : Fraction (if tail = [] then [] else '.' :: tail) tail := by
    split_ifs with htail
    · rw [htail]
      exact .absent
    · exact .present ⟨htail, fun c hc => hdigits.digits c (List.mem_cons_of_mem _ hc)⟩
  have hpower : e + 1 - (d :: tail).length = e - tail.length := by
    rw [List.length_cons]
    omega
  have h := Floating.mk hminus hwhole hfraction (exponent_text e) (.inr (List.cons_ne_nil _ _))
  rw [hpower]
  simpa [Decimal.exponential] using h

/-! ## Doubles -/

/-- The digits of a decimal without the zeros they end with, the first digit at its place. -/
theorem scientific_spec {d : Decimal} (hd : d.digits ≠ 0) :
    Digits d.scientific.1 ∧
      d.value = decimalValue d.scientific.1 * 10 ^ (d.scientific.2 + 1 - d.scientific.1.length) := by
  obtain ⟨z, hz⟩ := exists_dropTrailingZeros_append (Nat.toDigits 10 d.digits)
  have hsplit : decimalValue (dropTrailingZeros (Nat.toDigits 10 d.digits)) * 10 ^ z = d.digits := by
    rw [← decimalValue_append_zeros, ← hz, decimalValue_toDigits]
  have hlength := congrArg List.length hz
  rw [List.length_append, List.length_replicate] at hlength
  refine ⟨⟨?_, fun c hc => ?_⟩, ?_⟩
  · intro hnone
    have hnone : dropTrailingZeros (Nat.toDigits 10 d.digits) = [] := hnone
    rw [hnone] at hsplit
    exact hd (hsplit.symm.trans (Nat.zero_mul _))
  · exact isDigit_of_mem_toDigits (hz ▸ List.mem_append_left _ hc)
  · have hpower : d.scientific.2 + 1 - d.scientific.1.length = z + d.exponent := by
      simp only [Decimal.scientific]
      omega
    rw [hpower, zpow_add₀ (by norm_num), zpow_natCast, ← mul_assoc, Decimal.value, ← hsplit]
    push_cast
    rfl

/-- **What is written of a double is rounded to it.** -/
theorem floating_text (hx : x.isFinite = true) :
    ∃ q, Floating x.text x.negative q ∧ Binary64.Rounds x.negative q x := by
  have hminus := minus_sign x.negative
  unfold Binary64.text
  generalize (if x.negative then ['-'] else []) = minus at hminus ⊢
  cases hzero : x.isZero with
  | true =>
    have hvalue : decimalValue (['0'] ++ ['0']) = 0 := rfl
    refine ⟨_, floating_point hminus digits_zero digits_zero, ?_⟩
    rw [hvalue, Nat.cast_zero, zero_mul, Binary64.rounds_zero_iff le_rfl (by positivity)]
    simp only [Binary64.isZero, Bool.and_eq_true, decide_eq_true_eq] at hzero
    obtain ⟨negative, exponent, fraction⟩ := x
    obtain ⟨rfl, rfl⟩ := hzero
    rfl
  | false =>
    obtain ⟨hdigits, hvalue⟩ := scientific_spec (Binary64.shortest_digits_ne_zero hzero)
    refine ⟨x.shortest.value, ?_, Binary64.rounds_shortest hzero hx⟩
    rw [if_neg Bool.false_ne_true, hvalue, Decimal.text]
    dsimp only
    split_ifs
    · exact floating_positional hminus hdigits _
    · exact floating_exponential hminus hdigits _

/-- **The text of a number is a literal for it,** if any text is. -/
theorem Grammar.Literal.numeral {n : Json.Number} (h : Literal text (.number n)) :
    Literal n.write (.number n) := by
  generalize hv : Json.number n = v at h
  cases h with
  | string => cases hv
  | placeholder => cases hv
  | @integer _ i _ hrange =>
    rw [Json.ofInt_of_inRange ⟨by omega, by omega⟩] at hv
    cases hv
    exact .integer (integer_writeInt i) hrange
  | floating hx =>
    cases hv
    obtain ⟨q, hfloating, hrounds⟩ := floating_text hx.finite
    exact .floating hrounds hfloating

end ItemClient.Filter
