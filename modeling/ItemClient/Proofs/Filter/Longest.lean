import ItemClient.Proofs.Filter.Scanning

/-!
# Numbers are taken as long as possible

A number (`Numeral`) is a minus or none, digits, a fraction or none and an exponent or none. Of the
numbers that a text begins with, the longest is taken (`Longest`). `1.e5` begins with `1` alone, as
no digits follow its point, though `1.5e5` is a number.

Each of the three parts that end in digits takes the digits that follow, and when a later part is
there, none follow. So what is left of a text when a number was taken is a suffix of what follows
any number that it begins with (`Numeral.suffix_takeNumber`).

The longest number in front of a text is the longest in front of any text that is the same up to
its first white space (`Longest.of_loosens`), for a number has no white space in it.
-/

namespace ItemClient.Filter

open Text Grammar

variable {n : Nat} {c : Char} {cs text text' rest rest' : List Char} {t t' : Token}

/-! ## Texts with more white space -/

/-- Up to its first white space a text is the beginning of another. -/
def Loosens (rest rest' : List Char) : Prop := (rest'.takeWhile fun c => !isBlank c) <+: rest

theorem Breaks.loosens (h : Breaks rest') (rest : List Char) : Loosens rest rest' := by
  cases rest' with
  | nil => exact List.nil_prefix
  | cons c tail =>
    have hc : isBlank c = true := breaks_cons.1 h
    simp [Loosens, hc]

namespace Loosens

theorem append (h : Loosens rest rest') (text : List Char) :
    Loosens (text ++ rest) (text ++ rest') := by
  induction text with
  | nil => exact h
  | cons c text ih =>
    by_cases hc : isBlank c = true
    · simp [Loosens, hc]
    · simpa [Loosens, hc] using ih

/-- What has no white space in it and begins the looser text begins the other too. -/
theorem isPrefix (h : Loosens rest rest') (hbegin : text <+: rest')
    (hblank : ∀ c ∈ text, isBlank c = false) : text <+: rest := by
  obtain ⟨more, rfl⟩ := hbegin
  have htake : ((text ++ more).takeWhile fun c => !isBlank c) =
      text ++ more.takeWhile fun c => !isBlank c :=
    List.takeWhile_append_of_pos (by simpa using hblank)
  rw [Loosens, htake] at h
  exact (List.prefix_append text _).trans h

theorem stops {p : Char → Bool} (h : Loosens rest rest')
    (hp : ∀ n ∈ blankPoints, p (Char.ofNat n) = false) (hrest : Stops p rest) : Stops p rest' := by
  intro c hc
  by_cases hblank : isBlank c = true
  · exact of_mem_points hp (mem_blankPoints hblank)
  · obtain ⟨tail, rfl⟩ := List.head?_eq_some_iff.1 hc
    have hfirst : [c] <+: rest := h.isPrefix ⟨tail, rfl⟩ (by simpa using hblank)
    obtain ⟨tail', rfl⟩ := hfirst
    exact stops_cons.1 hrest

end Loosens

/-! ## The parts of a number -/

section Parts

variable {minus sign ds fraction exponent : List Char} {negative : Bool} {i : Int}

theorem Grammar.Digits.isBlank (h : Digits ds) : ∀ c ∈ ds, Text.isBlank c = false :=
  fun c hc => isBlank_of_isDigit (h.digits c hc)

theorem Grammar.Minus.isBlank (h : Minus minus negative) : ∀ c ∈ minus, Text.isBlank c = false := by
  cases h with
  | absent => simp
  | present => exact List.forall_mem_singleton.2 (by decide)

theorem Grammar.Sign.isBlank (h : Sign sign negative) : ∀ c ∈ sign, Text.isBlank c = false := by
  cases h with
  | absent => simp
  | plus | minus => exact List.forall_mem_singleton.2 (by decide)

theorem Grammar.Fraction.isBlank (h : Fraction fraction ds) :
    ∀ c ∈ fraction, Text.isBlank c = false := by
  cases h with
  | absent => simp
  | present hds => exact List.forall_mem_cons.2 ⟨by decide, hds.isBlank⟩

theorem Grammar.Exponent.isBlank (h : Exponent exponent i) :
    ∀ c ∈ exponent, Text.isBlank c = false := by
  cases h with
  | absent => simp
  | present he hsign hds =>
    refine List.forall_mem_cons.2 ⟨?_, List.forall_mem_append.2 ⟨hsign.isBlank, hds.isBlank⟩⟩
    rcases he with rfl | rfl <;> decide

theorem dropWhile_of_stops {p : Char → Bool} {rest : List Char} (h : Stops p rest) :
    rest.dropWhile p = rest := by
  have hdrop := dropWhile_append (List.forall_mem_nil _) h
  rwa [List.nil_append] at hdrop

/-- Digits take the digits that follow. -/
theorem dropWhile_digits (h : Digits ds) (rest : List Char) :
    (ds ++ rest).dropWhile Char.isDigit = rest.dropWhile Char.isDigit :=
  List.dropWhile_append_of_pos h.digits

/-- A fraction is taken with the digits that follow. -/
theorem suffix_takeFraction (h : Fraction fraction ds) (rest : List Char) :
    (takeFraction (fraction ++ rest)).2 <:+ rest := by
  cases h with
  | absent => exact ⟨_, (takeFraction_spec rest).1⟩
  | present hds =>
    have hne : (ds ++ rest).takeWhile Char.isDigit ≠ [] := by
      rw [List.takeWhile_append_of_pos hds.digits]
      simp [hds.ne_nil]
    rw [List.cons_append, takeFraction, if_neg hne, dropWhile_digits hds]
    exact List.dropWhile_suffix _

/-- An exponent is taken with the digits that follow. -/
theorem suffix_takeExponent (h : Exponent exponent i) (rest : List Char) :
    (takeExponent (exponent ++ rest)).2 <:+ rest := by
  cases h with
  | absent => exact ⟨_, (takeExponent_spec rest).1⟩
  | @present e sign ds negative he hsign hds =>
    have htake : takeSign (sign ++ (ds ++ rest)) = (sign, ds ++ rest) :=
      takeSign_append hsign (hds.stops (by decide) rest)
    have hne : (ds ++ rest).takeWhile Char.isDigit ≠ [] := by
      rw [List.takeWhile_append_of_pos hds.digits]
      simp [hds.ne_nil]
    rw [List.cons_append, List.cons_append, List.append_assoc, takeExponent, htake]
    dsimp only
    rw [if_pos ⟨he, hne⟩, dropWhile_digits hds]
    exact List.dropWhile_suffix _

end Parts

/-! ## Numbers -/

/-- A number, part by part. -/
structure Numeral where
  /-- The minus sign, if it has one. -/
  minus : List Char
  /-- The digits before the point. -/
  whole : List Char
  /-- The point and the digits after it, if it has them. -/
  fraction : List Char
  /-- The letter, the sign and the digits of the exponent, if it has one. -/
  exponent : List Char
  isMinus : ∃ negative, Minus minus negative
  isWhole : Digits whole
  isFraction : ∃ ds, Fraction fraction ds
  isExponent : ∃ n, Exponent exponent n

namespace Numeral

/-- The characters of a number. -/
def chars (m : Numeral) : List Char := m.minus ++ m.whole ++ m.fraction ++ m.exponent

/-- The token of a number, by whether it has a fraction or an exponent. -/
def token (m : Numeral) : Token :=
  if m.fraction = [] ∧ m.exponent = [] then .int (String.ofList m.chars)
  else .float (String.ofList m.chars)

theorem takeNumber_chars (m : Numeral) (h : Breaks rest) :
    takeNumber (m.chars ++ rest) = (m.token, rest) := by
  obtain ⟨negative, hminus⟩ := m.isMinus
  obtain ⟨ds, hfraction⟩ := m.isFraction
  obtain ⟨i, hexponent⟩ := m.isExponent
  exact takeNumber_append hminus m.isWhole hfraction hexponent h

/-- A number of the same characters is the same token. -/
theorem token_congr {m m' : Numeral} (h : m.chars = m'.chars) : m.token = m'.token := by
  have htake := m.takeNumber_chars breaks_nil
  rw [h, m'.takeNumber_chars breaks_nil] at htake
  exact (congrArg Prod.fst htake).symm

/-- A number has no white space in it. -/
theorem isBlank_chars (m : Numeral) : ∀ c ∈ m.chars, isBlank c = false := by
  obtain ⟨negative, hminus⟩ := m.isMinus
  obtain ⟨ds, hfraction⟩ := m.isFraction
  obtain ⟨i, hexponent⟩ := m.isExponent
  simp only [chars, List.forall_mem_append]
  exact ⟨⟨⟨hminus.isBlank, m.isWhole.isBlank⟩, hfraction.isBlank⟩, hexponent.isBlank⟩

/-- **No less than a number is taken** from the front of a text that begins with it. -/
theorem suffix_takeNumber (m : Numeral) (rest : List Char) :
    (takeNumber (m.chars ++ rest)).2 <:+ rest := by
  obtain ⟨minus, whole, fraction, exponent, ⟨negative, hminus⟩, hwhole, ⟨ds, hfraction⟩,
    ⟨i, hexponent⟩⟩ := m
  have hminusTake := takeMinus_append hminus
    (hwhole.stops (p := (· == '-')) (by decide) (fraction ++ (exponent ++ rest)))
  simp only [chars, List.append_assoc, takeNumber, hminusTake, dropWhile_digits hwhole]
  have hexponentTake : ∀ cs, (takeExponent cs).2 <:+ cs := fun cs => ⟨_, (takeExponent_spec cs).1⟩
  -- The last part that is there takes the digits that follow; the parts before it take no more
  -- than they are.
  by_cases hexponentNil : exponent = []
  · by_cases hfractionNil : fraction = []
    · have hfractionTake := (takeFraction_spec (rest.dropWhile Char.isDigit)).1
      rw [hexponentNil, hfractionNil]
      exact ((hexponentTake _).trans ⟨_, hfractionTake⟩).trans (List.dropWhile_suffix _)
    · have hdigit : Stops Char.isDigit (fraction ++ rest) :=
        hfraction.stops rfl fun hnil => absurd hnil hfractionNil
      rw [hexponentNil, List.nil_append, dropWhile_of_stops hdigit]
      exact (hexponentTake _).trans (suffix_takeFraction hfraction rest)
  · have hdigit : Stops Char.isDigit (exponent ++ rest) :=
      hexponent.stops rfl rfl fun hnil => absurd hnil hexponentNil
    have hpoint : Stops (· == '.') (exponent ++ rest) :=
      hexponent.stops rfl rfl fun hnil => absurd hnil hexponentNil
    rw [dropWhile_of_stops (hfraction.stops rfl fun _ => hdigit),
      takeFraction_append hfraction hdigit hpoint]
    exact suffix_takeExponent hexponent rest

/-- A number begins with a digit or with a minus sign before one. -/
theorem exists_head (m : Numeral) (rest : List Char) :
    ∃ c tail, m.chars ++ rest = c :: tail ∧ isBlank c = false ∧
      (c.isDigit ∨ (c = '-' ∧ startsWithDigit tail)) := by
  obtain ⟨negative, hminus⟩ := m.isMinus
  simpa [chars] using exists_number_head hminus m.isWhole (m.fraction ++ (m.exponent ++ rest))

theorem startsWithDigit_takeMinus (m : Numeral) (rest : List Char) :
    startsWithDigit (takeMinus (m.chars ++ rest)).2 = true := by
  obtain ⟨negative, hminus⟩ := m.isMinus
  obtain ⟨d, tail, hwhole, hd⟩ := m.isWhole.exists_cons
  have htake := takeMinus_append hminus
    (m.isWhole.stops (p := (· == '-')) (by decide) (m.fraction ++ (m.exponent ++ rest)))
  simp only [chars, List.append_assoc]
  rw [htake, hwhole]
  exact hd

end Numeral

/-- Whether a token is a number. -/
def Token.isNumber : Token → Bool
  | int _ | float _ => true
  | _ => false

/-- The lexeme of a number. -/
theorem Lexeme.exists_numeral (h : Lexeme text t) (ht : t.isNumber = true) :
    ∃ m : Numeral, m.chars = text ∧ m.token = t := by
  cases h with
  | int hinteger =>
    cases hinteger with
    | @mk minus ds negative hminus hdigits =>
      refine ⟨⟨minus, ds, [], [], ⟨_, hminus⟩, hdigits, ⟨_, .absent⟩, ⟨_, .absent⟩⟩, ?_, ?_⟩ <;>
        simp [Numeral.token, Numeral.chars]
  | float hfloating =>
    cases hfloating with
    | @mk minus whole fraction exponent ds negative i hminus hwhole hfraction hexponent hsome =>
      refine ⟨⟨minus, whole, fraction, exponent, ⟨_, hminus⟩, hwhole, ⟨_, hfraction⟩,
        ⟨_, hexponent⟩⟩, rfl, ?_⟩
      rw [Numeral.token, if_neg (not_and_or.2 hsome)]
      rfl
  | _ => cases ht

theorem isNumber_takeNumber (cs : List Char) : (takeNumber cs).1.isNumber = true := by
  unfold takeNumber
  dsimp only
  split <;> rfl

/-! ## The longest number -/

/-- The longest number that a text begins with, and its token. -/
structure Longest (text : List Char) (t : Token) (cs : List Char) : Prop where
  isPrefix : text <+: cs
  isNumeral : ∃ m : Numeral, m.chars = text
  /-- No number that the text begins with is longer. -/
  length_le : ∀ m : Numeral, m.chars <+: cs → m.chars.length ≤ text.length
  /-- It is a float exactly when it has a fraction or an exponent. -/
  token : ∀ m : Numeral, m.chars = text → t = m.token

namespace Longest

theorem unique (h : Longest text t cs) (h' : Longest text' t' cs) : text = text' ∧ t = t' := by
  obtain ⟨m, rfl⟩ := h.isNumeral
  obtain ⟨m', rfl⟩ := h'.isNumeral
  have hle : m.chars.length ≤ m'.chars.length := h'.length_le m h.isPrefix
  have hge : m'.chars.length ≤ m.chars.length := h.length_le m' h'.isPrefix
  have hbegin : m.chars <+: m'.chars := List.prefix_of_prefix_length_le h.isPrefix h'.isPrefix hle
  have hchars : m.chars = m'.chars := hbegin.eq_of_length_le hge
  exact ⟨hchars, (h.token m rfl).trans (h'.token m hchars).symm⟩

/-- **The longest number is taken.** -/
theorem of_takeNumber (h : startsWithDigit (takeMinus cs).2 = true) :
    ∃ text, cs = text ++ (takeNumber cs).2 ∧ Longest text (takeNumber cs).1 cs := by
  obtain ⟨text, hsplit, hlexeme⟩ := takeNumber_spec h
  obtain ⟨m, rfl, htoken⟩ := hlexeme.exists_numeral (isNumber_takeNumber cs)
  refine ⟨m.chars, hsplit, ⟨_, hsplit.symm⟩, ⟨m, rfl⟩, ?_, ?_⟩
  · rintro m' ⟨tail, rfl⟩
    have hle := (m'.suffix_takeNumber tail).length_le
    have hlength := congrArg List.length hsplit
    simp only [List.length_append] at hlength
    omega
  · intro m' hchars
    rw [← htoken]
    exact Numeral.token_congr hchars.symm

theorem takeNumber_eq (h : Longest text t (text ++ rest)) :
    takeNumber (text ++ rest) = (t, rest) := by
  obtain ⟨m, hm⟩ := h.isNumeral
  have hstarts : startsWithDigit (takeMinus (text ++ rest)).2 = true :=
    hm ▸ m.startsWithDigit_takeMinus rest
  obtain ⟨text', hsplit, hlongest⟩ := of_takeNumber hstarts
  obtain ⟨rfl, htoken⟩ := h.unique hlongest
  exact Prod.ext htoken.symm (List.append_cancel_left hsplit).symm

/-- **White space that comes in later changes nothing.** -/
theorem of_loosens (h : Longest text t (text ++ rest)) (hloose : Loosens rest rest') :
    Longest text t (text ++ rest') where
  isPrefix := List.prefix_append text rest'
  isNumeral := h.isNumeral
  length_le m hm := h.length_le m ((hloose.append text).isPrefix hm m.isBlank_chars)
  token := h.token

end Longest

end ItemClient.Filter
