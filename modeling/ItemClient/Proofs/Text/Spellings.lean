import ItemClient.Proofs.Outcomes
import ItemClient.Proofs.Text.Digits
import ItemClient.Timestamp
import ItemClient.Uuid

/-!
# Spellings that are read back

A UUID and a point in time are read from the text that they are written as. The readers take more
than that: other spellings of a UUID, which have other lengths or other characters in the places of
the hyphens, and numbers of fewer digits with blanks between them in a date.
-/

namespace ItemClient

/-! ## UUIDs -/

namespace Uuid

/-- Groups are parted where they were joined. -/
theorem ungrouped?_grouped {ns : List Nat} {cs : List Char} (hns : ns ≠ [])
    (hlength : cs.length = ns.sum) : ungrouped? ns (grouped ns cs) = some cs := by
  induction ns generalizing cs with
  | nil => exact absurd rfl hns
  | cons n ns ih =>
    cases ns with
    | nil =>
      have hn : cs.length = n := by simpa using hlength
      have htake : cs.take n = cs := List.take_of_length_le (Nat.le_of_eq hn)
      show (if (cs.take n).length = n then some (cs.take n) else none) = some cs
      rw [htake, if_pos hn]
    | cons m ns =>
      have hsum : cs.length = n + (m :: ns).sum := by simpa using hlength
      have hfirst : (cs.take n).length = n := by
        rw [List.length_take]
        omega
      have hrest : (cs.drop n).length = (m :: ns).sum := by
        rw [List.length_drop]
        omega
      have hgrouped : grouped (n :: m :: ns) cs =
          cs.take n ++ '-' :: grouped (m :: ns) (cs.drop n) := by
        simp [grouped]
      rw [hgrouped, ungrouped?]
      · rw [List.drop_left' hfirst, List.take_left' hfirst]
        show (ungrouped? (m :: ns) _).map _ = _
        rw [ih (List.cons_ne_nil _ _) hrest, Option.map_some, List.take_append_drop]
      · simp

theorem digit?_hexDigit (d : Fin 16) : digit? (Text.hexDigit d.val) = some d := by
  revert d
  decide

theorem ofDigits?_digits (u : Uuid) :
    ofDigits? (u.digits.map fun d => Text.hexDigit d.val) = some u := by
  have hdigits : (u.digits.map fun d => Text.hexDigit d.val).mapM digit? = some u.digits := by
    apply Optional.mapM_eq_some.2
    apply List.forall₂_map_left_iff.2
    exact List.forall₂_same.2 fun d _ => digit?_hexDigit d
  unfold ofDigits?
  rw [hdigits, Option.bind_some, dif_pos u.length_eq]

/-- **A UUID is read from its text.** -/
theorem read?_write (u : Uuid) : read? u.write = some u := by
  have hbare : ofDigits? u.write = none := by
    have hhyphen : '-' ∈ u.write := by simp [write, groups, grouped]
    unfold ofDigits?
    rw [Optional.mapM_eq_none hhyphen (by decide), Option.bind_none]
  have hhyphenated : ofHyphenated? u.write = some u := by
    unfold ofHyphenated? write
    rw [ungrouped?_grouped (by decide) (by rw [List.length_map, u.length_eq]; rfl),
      Option.bind_some, ofDigits?_digits]
  unfold read?
  rw [hbare, hhyphenated]
  rfl

theorem read?_text (u : Uuid) : read? u.text.toList = some u := by
  rw [text, String.toList_ofList, read?_write]

end Uuid

/-! ## Points in time -/

namespace Timestamp

open Text

variable {width n : Nat} {ds rest : List Char} {c : Char}

theorem dropBlanks_cons (hc : isBlank c = false) : dropBlanks (c :: rest) = c :: rest := by
  unfold dropBlanks
  rw [List.dropWhile_cons_of_neg (by simp [hc])]

theorem isBlank_of_isDigit (hc : c.isDigit = true) : isBlank c = false := by
  have hrange : 48 ≤ c.toNat ∧ c.toNat ≤ 57 := by
    simpa [Char.isDigit, UInt32.le_iff_toNat_le] using hc
  simp only [isBlank, Bool.or_eq_false_iff, Bool.and_eq_false_iff, decide_eq_false_iff_not,
    beq_eq_false_iff_ne]
  omega

theorem dropBlanks_digits (hds : ∀ d ∈ ds, d.isDigit = true) (hne : ds ≠ []) :
    dropBlanks (ds ++ rest) = ds ++ rest := by
  cases ds with
  | nil => exact absurd rfl hne
  | cons d ds => exact dropBlanks_cons (isBlank_of_isDigit (hds d List.mem_cons_self))

/-- The digits that a text starts with, within a width that holds them all. -/
theorem takeWhile_isDigit_take (hds : ∀ d ∈ ds, d.isDigit = true) (hlength : ds.length ≤ width)
    (hc : c.isDigit = false) : ((ds ++ c :: rest).take width).takeWhile Char.isDigit = ds := by
  rw [List.take_append, List.take_of_length_le hlength, List.takeWhile_append_of_pos hds]
  cases width - ds.length with
  | zero => simp
  | succ k => simp [hc]

theorem number?_digits (hds : ∀ d ∈ ds, d.isDigit = true) (hne : ds ≠ [])
    (hlength : ds.length ≤ width) (hc : c.isDigit = false) :
    number? width (ds ++ c :: rest) = some (decimalValue ds, c :: rest) := by
  show (if ((ds ++ c :: rest).take width).takeWhile Char.isDigit = [] then none
    else some (decimalValue (((ds ++ c :: rest).take width).takeWhile Char.isDigit), _)) = _
  rw [takeWhile_isDigit_take hds hlength hc, if_neg hne, List.drop_left]

theorem field?_padZeros (hwidth : 0 < width) (hn : n < 10 ^ width) (hc : c.isDigit = false) :
    field? width (padZeros width n ++ c :: rest) = some (n, c :: rest) := by
  have hds : ∀ d ∈ padZeros width n, d.isDigit = true := fun _ => isDigit_of_mem_padZeros
  unfold field?
  rw [dropBlanks_digits hds (padZeros_ne_nil _ _), number?_digits hds (padZeros_ne_nil _ _)
    (Nat.le_of_eq (length_padZeros hwidth hn)) hc, decimalValue_padZeros]

theorem year?_minus (rest : List Char) : year? ('-' :: rest) =
    (number? rest.length rest).map fun (n, rest) => (-(n : Int), rest) := rfl

theorem year?_plus (rest : List Char) : year? ('+' :: rest) =
    (number? rest.length rest).map fun (n, rest) => ((n : Int), rest) := rfl

theorem year?_digits (hds : ∀ d ∈ ds, d.isDigit = true) (hne : ds ≠ []) : year? (ds ++ rest) =
    (number? 4 (ds ++ rest)).map fun (n, rest) => ((n : Int), rest) := by
  unfold year?
  rw [dropBlanks_digits hds hne]
  cases ds with
  | nil => exact absurd rfl hne
  | cons d ds =>
    have hd : d.isDigit = true := hds d List.mem_cons_self
    split
    · rename_i heq
      cases heq
      exact absurd hd (by decide)
    · rename_i heq
      cases heq
      exact absurd hd (by decide)
    · rfl

/-- **A year is read from its text.** A sign stands before it exactly when four digits do not do. -/
theorem year?_writeYear (year : Int) (hc : c.isDigit = false) :
    year? (writeYear year ++ c :: rest) = some (year, c :: rest) := by
  have hpadded : ∀ n, ∀ d ∈ padZeros 4 n, d.isDigit = true := fun _ _ => isDigit_of_mem_padZeros
  have hsigned : ∀ n, number? (padZeros 4 n ++ c :: rest).length (padZeros 4 n ++ c :: rest) =
      some (n, c :: rest) := by
    intro n
    have hlength : (padZeros 4 n).length ≤ (padZeros 4 n ++ c :: rest).length := by
      rw [List.length_append]
      omega
    rw [number?_digits (hpadded n) (padZeros_ne_nil _ _) hlength hc, decimalValue_padZeros]
  unfold writeYear
  by_cases hshort : 0 ≤ year ∧ year ≤ 9999
  · have hlt : year.toNat < 10 ^ 4 := by omega
    have hvalue : ((year.toNat : Nat) : Int) = year := by omega
    rw [if_pos hshort, year?_digits (hpadded _) (padZeros_ne_nil _ _),
      number?_digits (hpadded _) (padZeros_ne_nil _ _)
        (Nat.le_of_eq (length_padZeros (by decide) hlt)) hc, decimalValue_padZeros]
    show some ((year.toNat : Int), _) = _
    rw [hvalue]
  · rw [if_neg hshort]
    by_cases hnegative : year < 0
    · have hvalue : -(year.natAbs : Int) = year := by omega
      rw [if_pos hnegative, List.cons_append, year?_minus, hsigned]
      show some (-(year.natAbs : Int), _) = _
      rw [hvalue]
    · have hvalue : (year.natAbs : Int) = year := by omega
      rw [if_neg hnegative, List.cons_append, year?_plus, hsigned]
      show some ((year.natAbs : Int), _) = _
      rw [hvalue]

theorem separator?_cons (hc : isBlank c = false) : separator? c (c :: rest) = some rest := by
  unfold separator?
  rw [dropBlanks_cons hc]
  exact if_pos rfl

theorem fraction?_padZeros {k : Nat} (hwidth : 0 < width ∧ width ≤ 9) (hk : k < 10 ^ width)
    (hc : c.isDigit = false) :
    fraction? ('.' :: (padZeros width k ++ c :: rest)) = some (k * 10 ^ (9 - width), c :: rest) := by
  have hlength := length_padZeros hwidth.1 hk
  show (if ((padZeros width k ++ c :: rest).take 9).takeWhile Char.isDigit = [] then none
    else some (decimalValue (((padZeros width k ++ c :: rest).take 9).takeWhile Char.isDigit) *
      10 ^ (9 - (((padZeros width k ++ c :: rest).take 9).takeWhile Char.isDigit).length),
      ((padZeros width k ++ c :: rest).drop
        (((padZeros width k ++ c :: rest).take 9).takeWhile Char.isDigit).length).dropWhile
          Char.isDigit)) = _
  rw [takeWhile_isDigit_take (fun _ => isDigit_of_mem_padZeros) (by omega) hc,
    if_neg (padZeros_ne_nil _ _), decimalValue_padZeros, List.drop_left, hlength,
    List.dropWhile_cons_of_neg (by simp [hc])]

/-- **The fraction of a second is read from its text,** whichever number of digits it has. -/
theorem fraction?_writeFraction {nano : Nat} (hnano : nano < 1000000000) (hc : c.isDigit = false)
    (hpoint : c ≠ '.') : fraction? (writeFraction nano ++ c :: rest) = some (nano, c :: rest) := by
  unfold writeFraction
  by_cases hzero : nano = 0
  · rw [if_pos hzero, hzero, List.nil_append, fraction?]
    intro _ heq
    cases heq
    exact hpoint rfl
  · rw [if_neg hzero]
    by_cases hmilli : nano % 1000000 = 0
    · rw [if_pos hmilli, List.cons_append, fraction?_padZeros (by decide) (by omega) hc]
      have hvalue : nano / 1000000 * 10 ^ (9 - 3) = nano := by omega
      rw [hvalue]
    · rw [if_neg hmilli]
      by_cases hmicro : nano % 1000 = 0
      · rw [if_pos hmicro, List.cons_append, fraction?_padZeros (by decide) (by omega) hc]
        have hvalue : nano / 1000 * 10 ^ (9 - 6) = nano := by omega
        rw [hvalue]
      · rw [if_neg hmicro, List.cons_append, fraction?_padZeros (by decide) (by omega) hc]
        have hvalue : nano * 10 ^ (9 - 9) = nano := by omega
        rw [hvalue]

/-- What follows the seconds does not go on with a digit. -/
theorem writeFraction_append (nano : Nat) :
    ∃ c rest, writeFraction nano ++ ['Z'] = c :: rest ∧ c.isDigit = false := by
  unfold writeFraction
  split
  · exact ⟨'Z', [], rfl, by decide⟩
  · split
    · exact ⟨'.', _, rfl, by decide⟩
    · split <;> exact ⟨'.', _, rfl, by decide⟩

theorem zone?_utc : zone? (dropBlanks ['Z']) = some (0, []) := rfl

theorem ofParts?_self (d : Date) : Date.ofParts? d.year d.month d.day = some d := by
  unfold Date.ofParts?
  rw [dif_pos ⟨d.year_range, d.month_range, d.day_range⟩]

/-- A clock that is not ahead shows the point in time itself. -/
theorem ofLocal?_self (t : Timestamp) :
    ofLocal? t.date t.hour t.minute t.second t.nano 0 = some t := by
  obtain ⟨date, hour, minute, second, nano, hhour, hminute, hsecond, hnano⟩ := t
  have htotal : ¬ (60 * (hour : Int) + minute - 0 < 0) := by omega
  have hday : ¬ (1440 ≤ 60 * (hour : Int) + minute - 0) := by omega
  have hwithin : ((60 * (hour : Int) + minute - 0) % 1440).toNat = 60 * hour + minute := by omega
  have hhour' : (60 * hour + minute) / 60 = hour := by omega
  have hminute' : (60 * hour + minute) % 60 = minute := by omega
  simp only [ofLocal?, if_neg htotal, if_neg hday, hwithin, hhour', hminute',
    Option.bind_eq_bind, Option.bind_some]
  rw [dif_pos ⟨hhour, hminute, hsecond, hnano⟩]

/-- **A point in time is read from its text.** -/
theorem read?_write (t : Timestamp) : read? t.write = some t := by
  have hmonth : t.date.month < 10 ^ 2 := by have := t.date.month_range; omega
  have hday : t.date.day < 10 ^ 2 := by
    have hle : daysInMonth t.date.year t.date.month ≤ 31 := by
      unfold daysInMonth
      split <;> split <;> omega
    have := t.date.day_range
    omega
  have hhour : t.hour < 10 ^ 2 := by have := t.hour_lt; omega
  have hminute : t.minute < 10 ^ 2 := by have := t.minute_lt; omega
  have hsecond : t.second < 10 ^ 2 := by have := t.second_le; omega
  have hwrite : t.write = writeYear t.date.year ++ '-' :: (padZeros 2 t.date.month ++ '-' ::
      (padZeros 2 t.date.day ++ 'T' :: (padZeros 2 t.hour ++ ':' :: (padZeros 2 t.minute ++ ':' ::
        (padZeros 2 t.second ++ (writeFraction t.nano ++ ['Z'])))))) := by
    simp [write]
  rw [hwrite]
  unfold read?
  simp only [Option.bind_eq_bind]
  rw [year?_writeYear _ (by decide), Option.bind_some, separator?_cons (by decide),
    Option.bind_some, field?_padZeros (by decide) hmonth (by decide), Option.bind_some,
    separator?_cons (by decide), Option.bind_some,
    field?_padZeros (by decide) hday (by decide), Option.bind_some, betweenDateAndTime?,
    Option.bind_some, field?_padZeros (by decide) hhour (by decide), Option.bind_some,
    separator?_cons (by decide), Option.bind_some,
    field?_padZeros (by decide) hminute (by decide), Option.bind_some,
    separator?_cons (by decide), Option.bind_some]
  obtain ⟨c, rest, hrest, hc⟩ := writeFraction_append t.nano
  rw [hrest, field?_padZeros (by decide) hsecond hc, ← hrest, Option.bind_some,
    fraction?_writeFraction t.nano_lt (by decide) (by decide), Option.bind_some, zone?_utc,
    Option.bind_some, ofParts?_self, Option.bind_some,
    if_pos ⟨rfl, t.hour_lt, t.minute_lt⟩, ofLocal?_self]

theorem read?_text (t : Timestamp) : read? t.text.toList = some t := by
  rw [text, String.toList_ofList, read?_write]

end Timestamp

end ItemClient
