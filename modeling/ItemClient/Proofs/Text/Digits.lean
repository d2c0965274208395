import Mathlib.Algebra.Ring.Nat
import Mathlib.Data.List.DropRight
import ItemClient.Text.Letter
import ItemClient.Text.Quoted

/-!
# Digits

What is written in digits is read back: a number in decimal, with or without leading zeros, and a
hexadecimal digit.
-/

namespace ItemClient.Text

variable {width n : Nat} {ds : List Char} {c : Char}

theorem decimalValue_eq (ds : List Char) : decimalValue ds = Nat.ofDigitChars 10 ds 0 :=
  Nat.ofDigitChars_eq_foldl.symm

theorem decimalValue_toDigits (n : Nat) : decimalValue (Nat.toDigits 10 n) = n := by
  rw [decimalValue_eq, Nat.ofDigitChars_ten_toDigits]

theorem isDigit_of_mem_toDigits (h : c ∈ Nat.toDigits 10 n) : c.isDigit = true :=
  Nat.isDigit_of_mem_toDigits (by decide) (by decide) h

theorem toDigits_inj {m : Nat} (h : Nat.toDigits 10 m = Nat.toDigits 10 n) : m = n := by
  rw [← decimalValue_toDigits m, h, decimalValue_toDigits]

/-- Only zero is written with a leading zero. -/
theorem toDigits_ne_zero_cons (hn : n ≠ 0) : Nat.toDigits 10 n ≠ '0' :: ds := by
  induction n using Nat.strongRecOn generalizing ds with
  | ind n ih =>
    intro h
    rw [Nat.toDigits_eq_if (by decide)] at h
    by_cases hlt : n < 10
    · rw [if_pos hlt, List.cons.injEq, Nat.digitChar_eq_zero] at h
      exact hn h.1
    · rw [if_neg hlt] at h
      have hpos : n / 10 ≠ 0 := by omega
      cases htop : Nat.toDigits 10 (n / 10) with
      | nil => exact Nat.toDigits_ne_nil htop
      | cons d top =>
        rw [htop, List.cons_append, List.cons.injEq] at h
        rw [h.1] at htop
        exact ih (n / 10) (by omega) hpos htop

/-! ## Padded numbers -/

theorem decimalValue_append (ds es : List Char) :
    decimalValue (ds ++ es) = decimalValue ds * 10 ^ es.length + decimalValue es := by
  rw [decimalValue_eq, decimalValue_eq, decimalValue_eq, Nat.ofDigitChars_append,
    Nat.ofDigitChars_eq_ofDigitChars_zero, Nat.mul_comm]

theorem decimalValue_zeros (n : Nat) : decimalValue (List.replicate n '0') = 0 := by
  rw [decimalValue_eq, Nat.ofDigitChars_replicate_zero, Nat.mul_zero]

theorem decimalValue_zeros_append (n : Nat) (ds : List Char) :
    decimalValue (List.replicate n '0' ++ ds) = decimalValue ds := by
  rw [decimalValue_append, decimalValue_zeros, Nat.zero_mul, Nat.zero_add]

theorem decimalValue_append_zeros (ds : List Char) (n : Nat) :
    decimalValue (ds ++ List.replicate n '0') = decimalValue ds * 10 ^ n := by
  rw [decimalValue_append, decimalValue_zeros, List.length_replicate, Nat.add_zero]

theorem decimalValue_padZeros (width n : Nat) : decimalValue (padZeros width n) = n :=
  (decimalValue_zeros_append _ _).trans (decimalValue_toDigits n)

theorem isDigit_of_mem_padZeros (h : c ∈ padZeros width n) : c.isDigit = true := by
  rcases List.mem_append.1 h with hzero | hdigit
  · rw [List.eq_of_mem_replicate hzero]
    rfl
  · exact isDigit_of_mem_toDigits hdigit

theorem length_padZeros (hwidth : 0 < width) (hn : n < 10 ^ width) :
    (padZeros width n).length = width := by
  have hle : (Nat.toDigits 10 n).length ≤ width :=
    (Nat.length_toDigits_le_iff (by decide) hwidth).2 hn
  show (List.replicate (width - (Nat.toDigits 10 n).length) '0' ++ Nat.toDigits 10 n).length = width
  rw [List.length_append, List.length_replicate]
  omega

theorem padZeros_ne_nil (width n : Nat) : padZeros width n ≠ [] := fun h =>
  Nat.toDigits_ne_nil (List.append_eq_nil_iff.1 h).2

/-- What is dropped from the end of digits is zeros. -/
theorem exists_dropTrailingZeros_append (ds : List Char) :
    ∃ n, ds = dropTrailingZeros ds ++ List.replicate n '0' := by
  have hsplit : dropTrailingZeros ds ++ ds.rtakeWhile (· == '0') = ds :=
    List.rdropWhile_append_rtakeWhile
  have hzeros : ∀ c ∈ ds.rtakeWhile (· == '0'), c = '0' := fun c hc => by
    simpa using List.mem_rtakeWhile_imp hc
  exact ⟨_, by rw [← List.eq_replicate_of_mem hzeros, hsplit]⟩

/-! ## Hexadecimal digits -/

theorem hexValue?_hexDigit (hn : n < 16) : hexValue? (hexDigit n) = some n := by
  revert n
  decide

end ItemClient.Text
