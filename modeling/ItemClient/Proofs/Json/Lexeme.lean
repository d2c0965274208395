import ItemClient.Json.Lexeme
import ItemClient.Json.Outline
import ItemClient.Json.Printer
import ItemClient.Proofs.Text.Digits

/-!
# Strings and numbers that are read back

The two lexemes of a JSON text that take some reading. A string is read from what is written of it,
one character at a time, whatever follows (`takeName_writeString`). An integer is read from its
digits (`takeNumber_writeInt`).

A number goes as far as it can, so what follows it matters: it must not go on with a digit, a point
or an exponent (`Ends`). Otherwise it does not matter (`takeNumber_append`), and it is enough to
know how a number is read that stands alone. For doubles this is all that is said here: the reader
rounds more than once and does not find all of them again.
-/

namespace ItemClient.Json

open Text

variable {c : Char} {rest : List Symbol} {cs ds : List Char}

/-! ## Strings -/

theorem takeString_plain (hquote : c ≠ '"') (hslash : c ≠ '\\') (hcontrol : ¬ c.toNat < 0x20) :
    takeString none (some c :: rest) = (takeString none rest).map (prepend (some c)) := by
  rw [takeString]
  · simp only [Option.any_some, hcontrol, hslash, decide_false, beq_false_of_ne, ne_eq,
      not_false_eq_true, Bool.or_self, Bool.false_eq_true, if_false]
    cases takeString none rest <;> rfl
  · simp [hquote]
  · simp [hslash]
  · simp [hslash]

theorem takeString_escape {e : Char} (he : escape? e = some c) (hu : e ≠ 'u') :
    takeString none (some '\\' :: some e :: rest) =
      (takeString none rest).map (prepend (some c)) := by
  rw [takeString]
  · rw [he]
    cases takeString none rest <;> rfl
  · simp [hu]

/-- An escaped control character. Its code point is no half of a pair. -/
theorem takeString_control (hcontrol : c.toNat < 0x20) :
    takeString none (some '\\' :: some 'u' :: some '0' :: some '0' ::
        some (hexDigit (c.toNat / 16)) :: some (hexDigit (c.toNat % 16)) :: rest) =
      (takeString none rest).map (prepend (some c)) := by
  have hzero : hexValue? '0' = some 0 := by decide
  have hunit : hexUnit? (some '0') (some '0') (some (hexDigit (c.toNat / 16)))
      (some (hexDigit (c.toNat % 16))) = some c.toNat := by
    simp only [hexUnit?, Option.bind_some, Option.bind_eq_bind, Option.pure_def, hzero,
      hexValue?_hexDigit (show c.toNat / 16 < 16 by omega),
      hexValue?_hexDigit (show c.toNat % 16 < 16 by omega), Option.some.injEq]
    omega
  have hhigh : isHighUnit c.toNat = false := by
    simp only [isHighUnit, Bool.and_eq_false_iff, decide_eq_false_iff_not]
    omega
  have hlow : isLowUnit c.toNat = false := by
    simp only [isLowUnit, Bool.and_eq_false_iff, decide_eq_false_iff_not]
    omega
  rw [takeString, hunit]
  simp only [Option.bind_eq_bind, Option.bind_some, hhigh, hlow, Bool.false_eq_true, if_false,
    Char.ofNat_toNat]
  cases takeString none rest <;> rfl

/-- **A character is read from what is written of it,** whatever follows. -/
theorem takeString_writeChar (c : Char) (rest : List Symbol) :
    takeString none ((writeChar c).map some ++ rest) =
      (takeString none rest).map (prepend (some c)) := by
  unfold writeChar
  split
  case h_8 _ hquote hslash _ _ _ _ _ =>
    by_cases hcontrol : c.toNat < 0x20
    · rw [if_pos hcontrol]
      exact takeString_control hcontrol
    · rw [if_neg hcontrol]
      exact takeString_plain hquote hslash hcontrol
  all_goals exact takeString_escape rfl (by decide)

theorem takeString_written (cs : List Char) (rest : List Symbol) :
    takeString none ((cs.flatMap writeChar).map some ++ some '"' :: rest) =
      some (some cs, rest) := by
  induction cs with
  | nil => rfl
  | cons c cs ih =>
    rw [List.flatMap_cons, List.map_append, List.append_assoc, takeString_writeChar, ih]
    rfl

/-- **A string is read from what is written of it.** -/
theorem takeName_writeString (s : String) (rest : List Symbol) :
    Outline.takeName ((writeString s).map some ++ rest) = some (some s, rest) := by
  have hwritten : (writeString s).map some ++ rest =
      some '"' :: ((s.toList.flatMap writeChar).map some ++ some '"' :: rest) := by
    simp [writeString]
  rw [hwritten, Outline.takeName, takeString_written]
  simp

/-- Nothing else is written like a string. -/
theorem writeString_append_inj {s s' : String} {rest rest' : List Char}
    (h : writeString s ++ rest = writeString s' ++ rest') : s = s' ∧ rest = rest' := by
  have htake := takeName_writeString s (rest.map some)
  rw [← List.map_append, h, List.map_append, takeName_writeString] at htake
  simp only [Option.some.injEq, Prod.mk.injEq] at htake
  exact ⟨htake.1.symm, List.map_injective_iff.2 (fun _ _ => Option.some.inj) htake.2.symm⟩

/-! ## Numbers -/

/-- What follows ends a number: nothing, a comma or a closing bracket. -/
def Ends (rest : List Symbol) : Prop :=
  rest = [] ∨ ∃ c tail, rest = some c :: tail ∧ (c = ',' ∨ c = ']' ∨ c = '\x7d')

theorem takeDigits_of_ends (hrest : Ends rest) : takeDigits rest = ([], rest) := by
  rcases hrest with rfl | ⟨c, tail, rfl, rfl | rfl | rfl⟩ <;> rfl

theorem takeDigits_digits (hds : ∀ d ∈ ds, d.isDigit = true) (hrest : Ends rest) :
    takeDigits (ds.map some ++ rest) = (ds, rest) := by
  induction ds with
  | nil => exact takeDigits_of_ends hrest
  | cons d ds ih =>
    have hd : d.isDigit = true := hds d List.mem_cons_self
    show takeDigits (some d :: (ds.map some ++ rest)) = _
    rw [takeDigits, if_pos hd, ih fun d' hd' => hds d' (List.mem_cons_of_mem _ hd')]

theorem takeFraction?_of_ends (hrest : Ends rest) : takeFraction? rest = some ([], rest) := by
  rcases hrest with rfl | ⟨c, tail, rfl, rfl | rfl | rfl⟩ <;> rfl

theorem le_foldl_digits (ds : List Char) (coefficient : Nat) :
    coefficient ≤ ds.foldl (fun n d => 10 * n + digitValue d) coefficient := by
  induction ds generalizing coefficient with
  | nil => exact Nat.le_refl _
  | cons d ds ih =>
    have hnext : coefficient ≤ 10 * coefficient + digitValue d := by omega
    exact Nat.le_trans hnext (ih _)

theorem gatherWhole_foldl {coefficient : Nat}
    (h : ds.foldl (fun n d => 10 * n + digitValue d) coefficient < 0x10000000000000000) :
    gatherWhole coefficient 0 ds =
      ⟨ds.foldl (fun n d => 10 * n + digitValue d) coefficient, 0⟩ := by
  induction ds generalizing coefficient with
  | nil => rfl
  | cons d ds ih =>
    have hnext : 10 * coefficient + digitValue d < 0x10000000000000000 :=
      Nat.lt_of_le_of_lt (le_foldl_digits ds _) h
    rw [gatherWhole, if_pos ⟨rfl, hnext⟩]
    exact ih h

/-- The digits of a number that 64 bits hold are all gathered. -/
theorem gatherWhole_toDigits {n : Nat} (h : n < 0x10000000000000000) :
    gatherWhole 0 0 (Nat.toDigits 10 n) = ⟨n, 0⟩ := by
  have hvalue : (Nat.toDigits 10 n).foldl (fun n d => 10 * n + digitValue d) 0 = n :=
    decimalValue_toDigits n
  rw [gatherWhole_foldl (by rw [hvalue]; exact h), hvalue]

theorem takeUnsigned_toDigits (negative : Bool) (n : Nat) (hrest : Ends rest) :
    takeUnsigned negative ((Nat.toDigits 10 n).map some ++ rest) =
      some (wholeValue? negative (Nat.toDigits 10 n), rest) := by
  have hdigits : ∀ d ∈ Nat.toDigits 10 n, d.isDigit = true := fun _ => isDigit_of_mem_toDigits
  unfold takeUnsigned
  rw [takeDigits_digits hdigits hrest]
  split
  · rename_i heq
    exact absurd (congrArg Prod.fst heq) Nat.toDigits_ne_nil
  · rename_i d ds _ heq
    by_cases hn : n = 0
    · rw [hn] at heq
      cases heq
    · exact absurd (congrArg Prod.fst heq) (toDigits_ne_zero_cons hn)
  · rename_i heq
    cases heq
    rw [takeFraction?_of_ends hrest]
    rcases hrest with rfl | ⟨c, tail, rfl, rfl | rfl | rfl⟩ <;> rfl

theorem takeNumber_of_ne {d : Symbol} (hd : d ≠ some '-') :
    takeNumber (d :: rest) = takeUnsigned false (d :: rest) := by
  unfold takeNumber
  split
  · rename_i heq
    cases heq
    exact absurd rfl hd
  · rfl

theorem Number.ofInt?_of_inRange {n : Int}
    (h : -0x8000000000000000 ≤ n ∧ n < 0x10000000000000000) :
    ofInt? n = some (.integer n h) := by
  unfold ofInt?
  rw [dif_pos h]

theorem ofInt_of_inRange {n : Int} (h : -0x8000000000000000 ≤ n ∧ n < 0x10000000000000000) :
    ofInt n = .number (.integer n h) := by
  rw [ofInt, Number.ofInt?_of_inRange h]
  rfl

theorem wholeValue?_toDigits {n : Nat} (hn : n < 0x10000000000000000) :
    wholeValue? false (Nat.toDigits 10 n) = Number.ofInt? n := by
  unfold wholeValue?
  rw [gatherWhole_toDigits hn]
  dsimp only
  rw [if_neg (by simp), if_pos (by simp)]

/-- A negative integer. Of zero only the double keeps the sign. -/
theorem wholeValue?_negative {n : Nat} {value : Number} (hn : n < 0x10000000000000000)
    (hzero : n ≠ 0) (hvalue : Number.ofInt? (-(n : Int)) = some value) :
    wholeValue? true (Nat.toDigits 10 n) = some value := by
  unfold wholeValue?
  rw [gatherWhole_toDigits hn]
  dsimp only
  rw [if_neg (by simp), if_neg (by simp), if_neg hzero, hvalue, Option.some_or]

/-- **An integer is read from its digits.** -/
theorem takeNumber_writeInt {n : Int} (h : -0x8000000000000000 ≤ n ∧ n < 0x10000000000000000)
    (hrest : Ends rest) :
    takeNumber ((writeInt n).map some ++ rest) = some (some (.integer n h), rest) := by
  have hbits : n.natAbs < 0x10000000000000000 := by omega
  unfold writeInt
  by_cases hn : n < 0
  · have hvalue : Number.ofInt? (-(n.natAbs : Int)) = some (.integer n h) := by
      have habs : -(n.natAbs : Int) = n := by omega
      rw [habs, Number.ofInt?_of_inRange h]
    rw [if_pos hn]
    show takeUnsigned true ((Nat.toDigits 10 n.natAbs).map some ++ rest) = _
    rw [takeUnsigned_toDigits _ _ hrest, wholeValue?_negative hbits (by omega) hvalue]
  · have habs : (n.natAbs : Int) = n := by omega
    rw [if_neg hn, List.nil_append]
    cases hdigits : Nat.toDigits 10 n.natAbs with
    | nil => exact absurd hdigits Nat.toDigits_ne_nil
    | cons d ds =>
      have hd : d.isDigit = true := isDigit_of_mem_toDigits (hdigits ▸ List.mem_cons_self)
      have hminus : some d ≠ some '-' := by
        intro heq
        cases heq
        cases hd
      rw [List.map_cons, List.cons_append, takeNumber_of_ne hminus, ← List.cons_append,
        ← List.map_cons, ← hdigits, takeUnsigned_toDigits _ _ hrest, wholeValue?_toDigits hbits,
        habs, Number.ofInt?_of_inRange h]

/-! ## Numbers that stand alone -/

section Alone

variable {input tail : List Symbol} {value : Option Number} {negative : Bool}

/-- Another character than those that end a number stands before the end. -/
theorem Ends.head_of_append (hrest : Ends rest) (h : input ++ rest = some c :: tail)
    (hc : c ∉ [',', ']', '\x7d']) : ∃ tail', input = some c :: tail' := by
  cases input with
  | nil =>
    rcases hrest with rfl | ⟨d, tail', rfl, hd⟩
    · cases h
    · cases h
      rcases hd with rfl | rfl | rfl <;> exact absurd (by decide) hc
  | cons d input =>
    cases h
    exact ⟨input, rfl⟩

theorem takeDigits_append (h : takeDigits input = (ds, tail)) (hrest : Ends rest) :
    takeDigits (input ++ rest) = (ds, tail ++ rest) := by
  induction input generalizing ds with
  | nil =>
    cases h
    exact takeDigits_of_ends hrest
  | cons d input ih =>
    cases d with
    | none =>
      cases h
      rfl
    | some d =>
      rw [List.cons_append, takeDigits]
      rw [takeDigits] at h
      by_cases hd : d.isDigit = true
      · rw [if_pos hd] at h ⊢
        cases hinput : takeDigits input with
        | mk ds' tail' =>
          rw [hinput] at h
          cases h
          rw [ih hinput]
      · rw [if_neg hd] at h ⊢
        cases h
        rfl

theorem takeFraction?_append (h : takeFraction? input = some (ds, tail)) (hrest : Ends rest) :
    takeFraction? (input ++ rest) = some (ds, tail ++ rest) := by
  unfold takeFraction? at h
  split at h
  · rename_i input
    rw [List.cons_append, takeFraction?]
    cases hinput : takeDigits input with
    | mk ds' tail' =>
      rw [hinput] at h
      rw [takeDigits_append hinput hrest]
      cases ds' with
      | nil => cases h
      | cons d ds' =>
        cases h
        rfl
  · rename_i hpoint
    cases h
    rw [takeFraction?]
    intro tail heq
    obtain ⟨tail', rfl⟩ := hrest.head_of_append heq (by decide)
    exact hpoint tail' rfl

theorem takeExponent?_append {exponentNegative : Bool}
    (h : takeExponent? input = some (exponentNegative, ds, tail)) (hrest : Ends rest) :
    takeExponent? (input ++ rest) = some (exponentNegative, ds, tail ++ rest) := by
  have hdigits : ∀ (negative : Bool) (input : List Symbol),
      takeExponent?.digits negative input = some (exponentNegative, ds, tail) →
      takeExponent?.digits negative (input ++ rest) = some (exponentNegative, ds, tail ++ rest) := by
    intro negative input h
    unfold takeExponent?.digits at h ⊢
    cases hinput : takeDigits input with
    | mk ds' tail' =>
      rw [hinput] at h
      rw [takeDigits_append hinput hrest]
      cases ds' with
      | nil => cases h
      | cons d ds' =>
        cases h
        rfl
  unfold takeExponent? at h
  split at h
  · exact hdigits _ _ h
  · exact hdigits _ _ h
  · rename_i hplus hminus
    rw [takeExponent?]
    · exact hdigits _ _ h
    · intro tail' heq
      obtain ⟨tail', rfl⟩ := hrest.head_of_append heq (by decide)
      exact hplus tail' rfl
    · intro tail' heq
      obtain ⟨tail', rfl⟩ := hrest.head_of_append heq (by decide)
      exact hminus tail' rfl

/-- The end of a number, after its fraction, and the value that the number has. -/
def takeEnd (negative : Bool) (whole fraction : List Char) (input : List Symbol) :
    Option (Option Number × List Symbol) :=
  let s := gatherFraction (gatherWhole 0 0 whole) fraction
  let float (exponentNegative : Bool) (exponent : Nat) : Option Number :=
    (decimalValue? negative s exponentNegative exponent).bind Number.ofFloat?
  match input with
  | some 'e' :: tail | some 'E' :: tail => do
      let (exponentNegative, ds, tail) ← takeExponent? tail
      pure (float exponentNegative (decimalValue ds), tail)
  | rest => pure (if fraction = [] then wholeValue? negative whole else float false 0, rest)

/-- The parts of a number: digits, without leading zeros, a fraction and the end. -/
theorem takeUnsigned_eq_some_iff :
    takeUnsigned negative input = some (value, tail) ↔
      ∃ whole after fraction next, takeDigits input = (whole, after) ∧ whole ≠ [] ∧
        (∀ d ds, whole ≠ '0' :: d :: ds) ∧ takeFraction? after = some (fraction, next) ∧
        takeEnd negative whole fraction next = some (value, tail) := by
  unfold takeUnsigned
  constructor
  · intro h
    split at h
    · cases h
    · cases h
    · rename_i whole after hne hlead hinput
      obtain ⟨⟨fraction, next⟩, hfraction, hend⟩ := Option.bind_eq_some_iff.1 h
      exact ⟨whole, after, fraction, next, hinput, hne, hlead, hfraction, hend⟩
  · rintro ⟨whole, after, fraction, next, hinput, hne, hlead, hfraction, hend⟩
    rw [hinput]
    split
    · rename_i heq
      cases heq
      exact absurd rfl hne
    · rename_i heq
      cases heq
      exact absurd rfl (hlead _ _)
    · rename_i heq
      cases heq
      exact Option.bind_eq_some_iff.2 ⟨(fraction, next), hfraction, hend⟩

theorem takeEnd_append {whole fraction : List Char}
    (h : takeEnd negative whole fraction input = some (value, tail)) (hrest : Ends rest) :
    takeEnd negative whole fraction (input ++ rest) = some (value, tail ++ rest) := by
  unfold takeEnd at h
  dsimp only at h
  split at h
  · obtain ⟨⟨exponentNegative, ds, after⟩, hexponent, h⟩ := Option.bind_eq_some_iff.1 h
    cases h
    exact Option.bind_eq_some_iff.2 ⟨_, takeExponent?_append hexponent hrest, rfl⟩
  · obtain ⟨⟨exponentNegative, ds, after⟩, hexponent, h⟩ := Option.bind_eq_some_iff.1 h
    cases h
    exact Option.bind_eq_some_iff.2 ⟨_, takeExponent?_append hexponent hrest, rfl⟩
  · rename_i hlower hupper
    cases h
    unfold takeEnd
    dsimp only
    split
    · rename_i heq
      obtain ⟨tail', rfl⟩ := hrest.head_of_append heq (by decide)
      exact absurd rfl (hlower tail')
    · rename_i heq
      obtain ⟨tail', rfl⟩ := hrest.head_of_append heq (by decide)
      exact absurd rfl (hupper tail')
    · rfl

theorem takeUnsigned_append (h : takeUnsigned negative input = some (value, tail))
    (hrest : Ends rest) : takeUnsigned negative (input ++ rest) = some (value, tail ++ rest) := by
  obtain ⟨whole, after, fraction, next, hinput, hne, hlead, hfraction, hend⟩ :=
    takeUnsigned_eq_some_iff.1 h
  exact takeUnsigned_eq_some_iff.2 ⟨whole, after ++ rest, fraction, next ++ rest,
    takeDigits_append hinput hrest, hne, hlead, takeFraction?_append hfraction hrest,
    takeEnd_append hend hrest⟩

/-- **What follows a number does not matter,** as long as it ends the number. -/
theorem takeNumber_append (h : takeNumber input = some (value, tail)) (hrest : Ends rest) :
    takeNumber (input ++ rest) = some (value, tail ++ rest) := by
  unfold takeNumber at h
  split at h
  · exact takeUnsigned_append h hrest
  · rename_i hminus
    cases input with
    | nil => cases h
    | cons d input =>
      rw [List.cons_append, takeNumber_of_ne]
      · exact takeUnsigned_append h hrest
      · intro heq
        exact hminus _ (by rw [heq])

/-! What is left of a text is the end of it. -/

theorem takeDigits_suffix (h : takeDigits input = (ds, tail)) : tail <:+ input := by
  induction input generalizing ds with
  | nil =>
    cases h
    exact List.suffix_rfl
  | cons d input ih =>
    cases d with
    | none =>
      cases h
      exact List.suffix_rfl
    | some d =>
      rw [takeDigits] at h
      by_cases hd : d.isDigit = true
      · rw [if_pos hd] at h
        cases hinput : takeDigits input with
        | mk ds' tail' =>
          rw [hinput] at h
          cases h
          exact (ih hinput).trans (List.suffix_cons _ _)
      · rw [if_neg hd] at h
        cases h
        exact List.suffix_rfl

theorem takeFraction?_suffix (h : takeFraction? input = some (ds, tail)) : tail <:+ input := by
  unfold takeFraction? at h
  split at h
  · rename_i input
    cases hinput : takeDigits input with
    | mk ds' tail' =>
      rw [hinput] at h
      cases ds' with
      | nil => cases h
      | cons d ds' =>
        cases h
        exact (takeDigits_suffix hinput).trans (List.suffix_cons _ _)
  · cases h
    exact List.suffix_rfl

theorem takeExponent?_suffix {exponentNegative : Bool}
    (h : takeExponent? input = some (exponentNegative, ds, tail)) : tail <:+ input := by
  have hdigits : ∀ (negative : Bool) (input : List Symbol),
      takeExponent?.digits negative input = some (exponentNegative, ds, tail) → tail <:+ input := by
    intro negative input h
    unfold takeExponent?.digits at h
    cases hinput : takeDigits input with
    | mk ds' tail' =>
      rw [hinput] at h
      cases ds' with
      | nil => cases h
      | cons d ds' =>
        cases h
        exact takeDigits_suffix hinput
  unfold takeExponent? at h
  split at h
  · exact (hdigits _ _ h).trans (List.suffix_cons _ _)
  · exact (hdigits _ _ h).trans (List.suffix_cons _ _)
  · exact hdigits _ _ h

theorem takeEnd_suffix {whole fraction : List Char}
    (h : takeEnd negative whole fraction input = some (value, tail)) : tail <:+ input := by
  unfold takeEnd at h
  dsimp only at h
  split at h
  · obtain ⟨⟨exponentNegative, ds, after⟩, hexponent, h⟩ := Option.bind_eq_some_iff.1 h
    cases h
    exact (takeExponent?_suffix hexponent).trans (List.suffix_cons _ _)
  · obtain ⟨⟨exponentNegative, ds, after⟩, hexponent, h⟩ := Option.bind_eq_some_iff.1 h
    cases h
    exact (takeExponent?_suffix hexponent).trans (List.suffix_cons _ _)
  · cases h
    exact List.suffix_rfl

theorem takeNumber_suffix (h : takeNumber input = some (value, tail)) : tail <:+ input := by
  have hunsigned : ∀ (negative : Bool) (input : List Symbol),
      takeUnsigned negative input = some (value, tail) → tail <:+ input := by
    intro negative input h
    obtain ⟨whole, after, fraction, next, hinput, -, -, hfraction, hend⟩ :=
      takeUnsigned_eq_some_iff.1 h
    exact ((takeEnd_suffix hend).trans (takeFraction?_suffix hfraction)).trans
      (takeDigits_suffix hinput)
  unfold takeNumber at h
  split at h
  · exact (hunsigned _ _ h).trans (List.suffix_cons _ _)
  · exact hunsigned _ _ h

end Alone

end ItemClient.Json
