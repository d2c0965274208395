import Mathlib.Data.List.TakeWhile
import ItemClient.Proofs.Filter.Grammar

/-!
# Lexemes

Each kind of lexeme is split off the front of a text by a function of its own. For each the two
directions are proved: what is split off is such a lexeme, and such a lexeme is split off whole
when what follows it cannot go on with it (`Stops`).

A number could still go on with a point or an `e` where it ends, but only if digits come after
these, so nothing that follows a number in a comparison is taken for a part of it.
-/

namespace ItemClient.Filter

open Text Grammar

/-! ## Characters -/

/-- What holds of no character of a few is shown by going through them. -/
theorem of_mem_points {p : Char → Bool} {points : List Nat}
    (hall : ∀ n ∈ points, p (Char.ofNat n) = false) {c : Char} (h : c.toNat ∈ points) :
    p c = false := by
  have hc := hall c.toNat h
  rwa [Char.ofNat_toNat] at hc

/-- The code points of white space. -/
def blankPoints : List Nat :=
  [0x09, 0x0A, 0x0B, 0x0C, 0x0D, 0x20, 0x85, 0xA0, 0x1680, 0x2000, 0x2001, 0x2002, 0x2003, 0x2004,
    0x2005, 0x2006, 0x2007, 0x2008, 0x2009, 0x200A, 0x2028, 0x2029, 0x202F, 0x205F, 0x3000]

/-- The code points of ASCII digits. -/
def digitPoints : List Nat := [0x30, 0x31, 0x32, 0x33, 0x34, 0x35, 0x36, 0x37, 0x38, 0x39]

section Characters

variable {c d : Char}

theorem mem_blankPoints (h : isBlank c = true) : c.toNat ∈ blankPoints := by
  simp only [isBlank, Bool.or_eq_true, Bool.and_eq_true, decide_eq_true_eq, beq_iff_eq] at h
  simp only [blankPoints, List.mem_cons, List.not_mem_nil, or_false]
  omega

theorem mem_digitPoints (h : c.isDigit = true) : c.toNat ∈ digitPoints := by
  simp only [Char.isDigit, Bool.and_eq_true, decide_eq_true_eq, ge_iff_le, UInt32.le_iff_toNat_le]
    at h
  obtain ⟨hlow, hhigh⟩ := h
  have hlow : 48 ≤ c.toNat := hlow
  have hhigh : c.toNat ≤ 57 := hhigh
  simp only [digitPoints, List.mem_cons, List.not_mem_nil, or_false]
  omega

theorem isIdentPart_blankPoints : ∀ n ∈ blankPoints, isIdentPart (Char.ofNat n) = false := by
  decide +kernel

theorem isBlank_of_isDigit (h : c.isDigit = true) : isBlank c = false :=
  of_mem_points (by decide) (mem_digitPoints h)

theorem isIdentStart_of_isDigit (h : c.isDigit = true) : isIdentStart c = false :=
  of_mem_points (by decide) (mem_digitPoints h)

theorem isIdentPart_of_isIdentStart (h : isIdentStart c = true) : isIdentPart c = true := by
  simp only [isIdentStart, isIdentPart, isAlphanumeric, Bool.or_eq_true] at h ⊢
  exact h.imp .inl id

/-- Characters that differ in some respect are different. -/
theorem ne_of_class {p : Char → Bool} (h : p c = true) (hd : p d = false) : c ≠ d := by
  rintro rfl
  rw [hd] at h
  cases h

theorem isBlank_of_isIdentStart (h : isIdentStart c = true) : isBlank c = false := by
  by_contra hblank
  have hpoint := mem_blankPoints (Bool.not_eq_false _ ▸ hblank)
  have hpart := of_mem_points isIdentPart_blankPoints hpoint
  exact ne_of_class (isIdentPart_of_isIdentStart h) hpart rfl

end Characters

/-! ## What follows a lexeme -/

/-- A text does not go on with characters of a class. -/
def Stops (p : Char → Bool) (rest : List Char) : Prop := ∀ c ∈ rest.head?, p c = false

/-- A text ends or goes on with white space. -/
def Breaks (rest : List Char) : Prop := ∀ c ∈ rest.head?, isBlank c = true

section Follow

variable {p : Char → Bool} {cs rest : List Char} {c : Char}

theorem stops_nil : Stops p [] := by
  intro c hc
  cases hc

theorem stops_cons : Stops p (c :: rest) ↔ p c = false := by
  simp [Stops]

theorem breaks_nil : Breaks [] := by
  intro c hc
  cases hc

theorem breaks_cons : Breaks (c :: rest) ↔ isBlank c = true := by
  simp [Breaks]

theorem Grammar.Blanks.breaks {blanks : List Char} (h : Blanks blanks) : Breaks blanks :=
  fun c hc => h c (List.mem_of_mem_head? hc)

theorem Breaks.stops (h : Breaks rest) (hp : ∀ n ∈ blankPoints, p (Char.ofNat n) = false) :
    Stops p rest :=
  fun c hc => of_mem_points hp (mem_blankPoints (h c hc))

theorem takeWhile_append (hcs : ∀ c ∈ cs, p c = true) (hrest : Stops p rest) :
    (cs ++ rest).takeWhile p = cs := by
  rw [List.takeWhile_append_of_pos hcs]
  cases rest with
  | nil => simp
  | cons c rest => simp [stops_cons.1 hrest]

theorem dropWhile_append (hcs : ∀ c ∈ cs, p c = true) (hrest : Stops p rest) :
    (cs ++ rest).dropWhile p = rest := by
  rw [List.dropWhile_append_of_pos hcs]
  cases rest with
  | nil => simp
  | cons c rest => simp [stops_cons.1 hrest]

/-- Where characters of a class were dropped the text does not go on with any. -/
theorem stops_dropWhile (p : Char → Bool) (cs : List Char) : Stops p (cs.dropWhile p) := by
  intro c hc
  have hnot := List.head?_dropWhile_not p cs
  rw [Option.mem_def.1 hc] at hnot
  simpa using hnot

end Follow

/-! ## Lexemes and their tokens -/

/-- A lexeme and the token that it is read as. -/
inductive Lexeme : List Char → Token → Prop
  | ident {name : List Char} : Name name → Lexeme name (.ident (String.ofList name))
  | dot : Lexeme ['.'] .dot
  | op (o : CompareOp) : Lexeme o.symbol.toList (.op o)
  | str {delimiter : Char} {body : List Char} : delimiter = '"' ∨ delimiter = '\'' →
      Body delimiter body → Lexeme (delimiter :: body ++ [delimiter]) (.str (String.ofList body))
  | int {text : List Char} {n : Int} : Integer text n → Lexeme text (.int (String.ofList text))
  | float {text : List Char} {negative : Bool} {q : ℚ} :
      Floating text negative q → Lexeme text (.float (String.ofList text))
  | var {text : List Char} : Placeholder text → Lexeme text (.var (String.ofList text))

/-! ## Names -/

section Names

variable {name rest : List Char} {c : Char}

theorem Grammar.Name.parts (h : Name name) : ∀ x ∈ name, isIdentPart x = true := by
  cases h with
  | mk hc hcs =>
    intro x hx
    rcases List.mem_cons.1 hx with rfl | hx
    · exact isIdentPart_of_isIdentStart hc
    · exact hcs x hx

theorem takeIdent_append (hname : Name name) (hrest : Stops isIdentPart rest) :
    takeIdent (name ++ rest) = (name, rest) := by
  rw [takeIdent, takeWhile_append hname.parts hrest, dropWhile_append hname.parts hrest]

theorem takeIdent_spec (cs : List Char) :
    (takeIdent cs).1 ++ (takeIdent cs).2 = cs ∧ (∀ x ∈ (takeIdent cs).1, isIdentPart x = true) ∧
      Stops isIdentPart (takeIdent cs).2 :=
  ⟨List.takeWhile_append_dropWhile, fun _ hx => List.mem_takeWhile_imp hx, stops_dropWhile _ _⟩

theorem name_of_takeIdent (hc : isIdentStart c = true) :
    Name (takeIdent (c :: rest)).1 := by
  have htake : (takeIdent (c :: rest)).1 = c :: rest.takeWhile isIdentPart := by
    simp [takeIdent, isIdentPart_of_isIdentStart hc]
  rw [htake]
  exact .mk hc fun x hx => List.mem_takeWhile_imp hx

end Names

/-! ## Numbers -/

section Numbers

variable {minus whole fraction sign exponent ds rest : List Char} {negative : Bool} {n : Int}

theorem Grammar.Digits.exists_cons (h : Digits ds) :
    ∃ d tail, ds = d :: tail ∧ d.isDigit = true := by
  obtain ⟨d, tail, rfl⟩ := List.exists_cons_of_ne_nil h.ne_nil
  exact ⟨d, tail, rfl, h.digits d List.mem_cons_self⟩

/-- Digits do not begin with anything else. -/
theorem Grammar.Digits.stops {p : Char → Bool} (h : Digits ds)
    (hp : ∀ n ∈ digitPoints, p (Char.ofNat n) = false) (rest : List Char) :
    Stops p (ds ++ rest) := by
  obtain ⟨d, tail, rfl, hd⟩ := h.exists_cons
  exact stops_cons.2 (of_mem_points hp (mem_digitPoints hd))

theorem Grammar.Minus.stops {p : Char → Bool} (h : Minus minus negative) (hminus : p '-' = false)
    (hrest : Stops p rest) : Stops p (minus ++ rest) := by
  cases h with
  | absent => exact hrest
  | present => exact stops_cons.2 hminus

/-- A fraction begins with a point, if it is there. -/
theorem Grammar.Fraction.stops {p : Char → Bool} (h : Fraction fraction ds)
    (hpoint : p '.' = false) (hrest : fraction = [] → Stops p rest) :
    Stops p (fraction ++ rest) := by
  cases h with
  | absent => exact hrest rfl
  | present hds => exact stops_cons.2 hpoint

/-- An exponent begins with its letter, if it is there. -/
theorem Grammar.Exponent.stops {p : Char → Bool} (h : Exponent exponent n)
    (hlower : p 'e' = false) (hupper : p 'E' = false) (hrest : exponent = [] → Stops p rest) :
    Stops p (exponent ++ rest) := by
  cases h with
  | absent => exact hrest rfl
  | present he hsign hds =>
    refine stops_cons.2 ?_
    rcases he with rfl | rfl
    · exact hlower
    · exact hupper

theorem digits_takeWhile {cs : List Char} (h : cs.takeWhile Char.isDigit ≠ []) :
    Digits (cs.takeWhile Char.isDigit) :=
  ⟨h, fun _ hd => List.mem_takeWhile_imp hd⟩

theorem takeMinus_append (h : Minus minus negative) (hrest : Stops (· == '-') rest) :
    takeMinus (minus ++ rest) = (minus, rest) := by
  cases h with
  | present => rfl
  | absent =>
    rw [List.nil_append, takeMinus]
    rintro tail rfl
    simp [stops_cons] at hrest

theorem takeMinus_spec (cs : List Char) :
    (takeMinus cs).1 ++ (takeMinus cs).2 = cs ∧ ∃ negative, Minus (takeMinus cs).1 negative := by
  unfold takeMinus
  split
  · exact ⟨rfl, true, .present⟩
  · exact ⟨rfl, false, .absent⟩

theorem takeSign_append (h : Sign sign negative)
    (hrest : Stops (fun c => c == '-' || c == '+') rest) :
    takeSign (sign ++ rest) = (sign, rest) := by
  cases h with
  | plus => rfl
  | minus => rfl
  | absent =>
    rw [List.nil_append, takeSign] <;>
      · rintro tail rfl
        simp [stops_cons] at hrest

theorem takeSign_spec (cs : List Char) :
    (takeSign cs).1 ++ (takeSign cs).2 = cs ∧ ∃ negative, Sign (takeSign cs).1 negative := by
  unfold takeSign
  split
  · exact ⟨rfl, true, .minus⟩
  · exact ⟨rfl, false, .plus⟩
  · exact ⟨rfl, false, .absent⟩

theorem takeFraction_append (h : Fraction fraction ds) (hdigit : Stops Char.isDigit rest)
    (hpoint : Stops (· == '.') rest) : takeFraction (fraction ++ rest) = (fraction, rest) := by
  cases h with
  | absent =>
    rw [List.nil_append, takeFraction]
    rintro tail rfl
    simp [stops_cons] at hpoint
  | present hds =>
    rw [List.cons_append, takeFraction, takeWhile_append hds.digits hdigit,
      dropWhile_append hds.digits hdigit, if_neg hds.ne_nil]

theorem takeFraction_spec (cs : List Char) :
    (takeFraction cs).1 ++ (takeFraction cs).2 = cs ∧ ∃ ds, Fraction (takeFraction cs).1 ds := by
  unfold takeFraction
  split
  · dsimp only
    split
    · exact ⟨rfl, [], .absent⟩
    · rename_i rest hdigits
      exact ⟨by simp [List.takeWhile_append_dropWhile], _, .present (digits_takeWhile hdigits)⟩
  · exact ⟨rfl, [], .absent⟩

theorem takeExponent_append (h : Exponent exponent n) (hdigit : Stops Char.isDigit rest)
    (he : Stops (fun c => c == 'e' || c == 'E') rest) :
    takeExponent (exponent ++ rest) = (exponent, rest) := by
  cases h with
  | absent =>
    cases rest with
    | nil => rfl
    | cons c tail =>
      have hc : ¬(c = 'e' ∨ c = 'E') := by simpa [stops_cons] using he
      simp [takeExponent, hc]
  | @present e sign ds negative he hsign hds =>
    have htake : takeSign (sign ++ (ds ++ rest)) = (sign, ds ++ rest) :=
      takeSign_append hsign (hds.stops (by decide) rest)
    rw [List.cons_append, List.cons_append, List.append_assoc, takeExponent, htake]
    dsimp only
    rw [takeWhile_append hds.digits hdigit, dropWhile_append hds.digits hdigit,
      if_pos ⟨he, hds.ne_nil⟩, List.cons_append]

theorem takeExponent_spec (cs : List Char) :
    (takeExponent cs).1 ++ (takeExponent cs).2 = cs ∧ ∃ n, Exponent (takeExponent cs).1 n := by
  unfold takeExponent
  split
  · rename_i e rest
    obtain ⟨hsplit, negative, hsign⟩ := takeSign_spec rest
    dsimp only
    split
    · rename_i h
      refine ⟨?_, _, .present h.1 hsign (digits_takeWhile h.2)⟩
      conv_rhs => rw [← hsplit]
      simp [List.takeWhile_append_dropWhile]
    · exact ⟨rfl, 0, .absent⟩
  · exact ⟨rfl, 0, .absent⟩

/-- **A number is taken whole** when white space follows it or nothing. -/
theorem takeNumber_append (hminus : Minus minus negative) (hwhole : Digits whole)
    (hfraction : Fraction fraction ds) (hexponent : Exponent exponent n) (hrest : Breaks rest) :
    takeNumber (minus ++ whole ++ fraction ++ exponent ++ rest) =
      (let text := String.ofList (minus ++ whole ++ fraction ++ exponent)
       if fraction = [] ∧ exponent = [] then .int text else .float text, rest) := by
  have hdigit : Stops Char.isDigit rest := hrest.stops (by decide)
  have hpoint : Stops (· == '.') rest := hrest.stops (by decide)
  have hletter : Stops (fun c => c == 'e' || c == 'E') rest := hrest.stops (by decide)
  have hexponentTail : Stops Char.isDigit (exponent ++ rest) :=
    hexponent.stops rfl rfl fun _ => hdigit
  have hfractionTail : Stops Char.isDigit (fraction ++ (exponent ++ rest)) :=
    hfraction.stops rfl fun _ => hexponentTail
  simp only [List.append_assoc, takeNumber,
    takeMinus_append hminus (hwhole.stops (by decide) _),
    takeWhile_append hwhole.digits hfractionTail, dropWhile_append hwhole.digits hfractionTail,
    takeFraction_append hfraction hexponentTail (hexponent.stops rfl rfl fun _ => hpoint),
    takeExponent_append hexponent hdigit hletter]

/-- What is taken as a number is one. -/
theorem takeNumber_spec {cs : List Char} (h : startsWithDigit (takeMinus cs).2 = true) :
    ∃ text, cs = text ++ (takeNumber cs).2 ∧ Lexeme text (takeNumber cs).1 := by
  obtain ⟨hminusSplit, negative, hminus⟩ := takeMinus_spec cs
  rcases hm : takeMinus cs with ⟨minus, rest⟩
  obtain ⟨hfractionSplit, ds, hfraction⟩ := takeFraction_spec (rest.dropWhile Char.isDigit)
  rcases hf : takeFraction (rest.dropWhile Char.isDigit) with ⟨fraction, rest'⟩
  obtain ⟨hexponentSplit, n, hexponent⟩ := takeExponent_spec rest'
  rcases he : takeExponent rest' with ⟨exponent, rest''⟩
  simp only [hm, hf, he] at h hminusSplit hminus hfractionSplit hfraction hexponentSplit hexponent
  have hwhole : Digits (rest.takeWhile Char.isDigit) := by
    refine digits_takeWhile ?_
    cases rest with
    | nil => cases h
    | cons d tail =>
      have hd : d.isDigit = true := h
      simp [hd]
  refine ⟨minus ++ rest.takeWhile Char.isDigit ++ fraction ++ exponent, ?_, ?_⟩
  · simp only [takeNumber, hm, hf, he]
    rw [List.append_assoc, hexponentSplit, List.append_assoc, hfractionSplit, List.append_assoc,
      List.takeWhile_append_dropWhile, hminusSplit]
  · simp only [takeNumber, hm, hf, he]
    by_cases hnone : fraction = [] ∧ exponent = []
    · rw [if_pos hnone, hnone.1, hnone.2, List.append_nil, List.append_nil]
      exact .int (.mk hminus hwhole)
    · rw [if_neg hnone]
      exact .float (.mk hminus hwhole hfraction hexponent (not_and_or.1 hnone))

end Numbers

/-! ## Variables -/

section Variables

variable {fields adjustment rest : List Char} {v : Variable}

theorem Grammar.Fields.stops {p : Char → Bool} (h : Fields fields) (hpoint : p '.' = false)
    (hrest : Stops p rest) : Stops p (fields ++ rest) := by
  cases h with
  | nil => exact hrest
  | cons hname hfields => exact stops_cons.2 hpoint

theorem Grammar.Adjustment.stops {p : Char → Bool} (h : Adjustment adjustment)
    (hopen : p '(' = false) (hrest : Stops p rest) : Stops p (adjustment ++ rest) := by
  cases h with
  | absent => exact hrest
  | present hinner => exact stops_cons.2 hopen

/-- What goes on a name goes on a dotted path. -/
theorem takeDotted_append {cs : List Char} (hcs : ∀ x ∈ cs, isIdentPart x = true)
    (rest : List Char) :
    takeDotted (cs ++ rest) = (cs ++ (takeDotted rest).1, (takeDotted rest).2) := by
  induction cs with
  | nil => rfl
  | cons c cs ih =>
    have hc : isIdentPart c = true := hcs c List.mem_cons_self
    have hpoint : c ≠ '.' := ne_of_class hc (by decide)
    have ih := ih fun x hx => hcs x (List.mem_cons_of_mem _ hx)
    rw [List.cons_append, takeDotted, if_pos hc, ih]
    · rfl
    · rintro x tail rfl
      exact absurd rfl hpoint

/-- No path is taken where a text goes on neither with a name nor with a dot before one. -/
theorem takeDotted_eq_nil_iff : takeDotted rest = ([], rest) ↔
    Stops isIdentPart rest ∧ ∀ c tail, rest = '.' :: c :: tail → isIdentStart c = false := by
  match rest with
  | [] => simp [takeDotted, stops_nil]
  | c :: tail =>
    by_cases hpoint : ∃ d tail', c :: tail = '.' :: d :: tail'
    · obtain ⟨d, tail', heq⟩ := hpoint
      have hpart : isIdentPart '.' = false := by decide
      cases heq
      by_cases hd : isIdentStart d = true <;> simp [takeDotted, stops_cons, hpart, hd]
    · have hno : ∀ d tail', c = '.' → tail = d :: tail' → False := by
        rintro d tail' rfl rfl
        exact hpoint ⟨d, tail', rfl⟩
      have hfree : ∀ d tail', c :: tail = '.' :: d :: tail' → isIdentStart d = false :=
        fun d tail' heq => absurd ⟨d, tail', heq⟩ hpoint
      rw [takeDotted, stops_cons]
      · by_cases hc : isIdentPart c = true
        · simp [hc]
        · simpa [hc] using hfree
      · exact hno

theorem takeDotted_fields (h : Fields fields) (hrest : takeDotted rest = ([], rest)) :
    takeDotted (fields ++ rest) = (fields, rest) := by
  induction h with
  | nil => exact hrest
  | @cons name fields hname hfields ih =>
    cases hname with
    | @mk c cs hc hcs =>
      have htake := takeDotted_append hcs (fields ++ rest)
      rw [ih] at htake
      simp only [List.cons_append, List.append_assoc, takeDotted, if_pos hc, htake]

/-- What is left of a text when a path was taken goes on with no path. -/
theorem takeDotted_rest (cs : List Char) :
    takeDotted (takeDotted cs).2 = ([], (takeDotted cs).2) := by
  induction cs using takeDotted.induct with
  | case1 c rest hc path rest' htake ih =>
    rw [takeDotted, if_pos hc]
    exact ih
  | case2 c rest hc => simp [takeDotted, hc]
  | case3 c rest hne hc path rest' htake ih =>
    rw [takeDotted, if_pos hc]
    · exact ih
    · exact hne
  | case4 c rest hne hc =>
    rw [takeDotted, if_neg hc]
    · dsimp only
      rw [takeDotted, if_neg hc]
      exact hne
    · exact hne
  | case5 => rfl

/-- What is taken as a dotted path goes on a name first, and then come fields. -/
theorem takeDotted_spec (cs : List Char) :
    (takeDotted cs).1 ++ (takeDotted cs).2 = cs ∧ ∃ part fields,
      (takeDotted cs).1 = part ++ fields ∧ (∀ x ∈ part, isIdentPart x = true) ∧ Fields fields := by
  -- The induction enters names in their middle; `part` is what is left of such a name.
  induction cs using takeDotted.induct with
  | case1 c rest hc path rest' htake ih =>
    simp only [htake] at ih
    obtain ⟨hsplit, part, fields, rfl, hpart, hfields⟩ := ih
    have hname : Name (c :: part) := .mk hc hpart
    rw [takeDotted, if_pos hc, htake]
    exact ⟨by simp [← hsplit], [], _, rfl, by simp, .cons hname hfields⟩
  | case2 c rest hc =>
    rw [takeDotted, if_neg hc]
    exact ⟨rfl, [], [], rfl, by simp, .nil⟩
  | case3 c rest hne hc path rest' htake ih =>
    simp only [htake] at ih
    obtain ⟨hsplit, part, fields, rfl, hpart, hfields⟩ := ih
    rw [takeDotted, if_pos hc, htake]
    · refine ⟨by simp [← hsplit], c :: part, fields, rfl, fun x hx => ?_, hfields⟩
      rcases List.mem_cons.1 hx with rfl | hx
      · exact hc
      · exact hpart x hx
    · exact hne
  | case4 c rest hne hc =>
    rw [takeDotted, if_neg hc]
    · exact ⟨rfl, [], [], rfl, by simp, .nil⟩
    · exact hne
  | case5 => exact ⟨rfl, [], [], rfl, by simp, .nil⟩

/-- Where a name has ended only fields are taken. -/
theorem fields_takeDotted {cs : List Char} (h : Stops isIdentPart cs) :
    (takeDotted cs).1 ++ (takeDotted cs).2 = cs ∧ Fields (takeDotted cs).1 := by
  obtain ⟨hsplit, part, fields, htake, hpart, hfields⟩ := takeDotted_spec cs
  refine ⟨hsplit, ?_⟩
  cases part with
  | nil => exact htake ▸ hfields
  | cons c part =>
    have hc : isIdentPart c = true := hpart c List.mem_cons_self
    rw [← hsplit, htake] at h
    have hc' : isIdentPart c = false := stops_cons.1 h
    rw [hc] at hc'
    cases hc'

theorem takeAdjustment?_append (h : Adjustment adjustment)
    (hrest : adjustment = [] → Stops (· == '(') rest) :
    takeAdjustment? (adjustment ++ rest) = some (adjustment, rest) := by
  cases h with
  | absent =>
    rw [List.nil_append, takeAdjustment?]
    rintro tail rfl
    simp [stops_cons] at hrest
  | @present inner hinner =>
    have hall : ∀ c ∈ inner, (c != ')') = true := by simpa using hinner
    have hstops : Stops (· != ')') (')' :: rest) := stops_cons.2 rfl
    have hassoc : '(' :: inner ++ [')'] ++ rest = '(' :: (inner ++ ')' :: rest) := by simp
    rw [hassoc, takeAdjustment?, dropWhile_append hall hstops, takeWhile_append hall hstops]

theorem takeAdjustment?_spec {cs : List Char} (h : takeAdjustment? cs = some (adjustment, rest)) :
    adjustment ++ rest = cs ∧ Adjustment adjustment ∧
      (adjustment = [] → Stops (· == '(') rest) := by
  unfold takeAdjustment? at h
  split at h
  · rename_i inner
    split at h
    · cases h
    · rename_i c tail hdrop
      cases h
      -- What was dropped up to is the closing parenthesis.
      have hclose : c = ')' := by
        have hstops := stops_dropWhile (· != ')') inner
        rw [hdrop, stops_cons] at hstops
        simpa using hstops
      have hsplit : inner.takeWhile (· != ')') ++ inner.dropWhile (· != ')') = inner :=
        List.takeWhile_append_dropWhile
      rw [hdrop, hclose] at hsplit
      refine ⟨by simp [hsplit], .present fun c hc => ?_, by simp⟩
      simpa using List.mem_takeWhile_imp hc
  · rename_i hopen
    cases h
    refine ⟨rfl, .absent, fun _ c hc => ?_⟩
    obtain ⟨tail, rfl⟩ := List.head?_eq_some_iff.1 hc
    simpa using hopen tail

theorem Variable.ofName?_name (v : Variable) : Variable.ofName? v.name = some v := by
  cases v <;> decide

theorem Variable.name_of_ofName? {name : String} (h : Variable.ofName? name = some v) :
    v.name = name := by
  simpa using List.find?_some h

theorem Variable.parts_name (v : Variable) : ∀ x ∈ v.name.toList, isIdentPart x = true :=
  List.all_eq_true.1 (by cases v <;> decide)

/-- What may follow a variable without adjustment and is not taken for a part of it. -/
structure Detached (v : Variable) (rest : List Char) : Prop where
  name : Stops isIdentPart rest
  fields : v.hasFields = true → takeDotted rest = ([], rest)
  adjustment : Stops (· == '(') rest

theorem Breaks.detached (h : Breaks rest) (v : Variable) : Detached v rest where
  name := h.stops isIdentPart_blankPoints
  fields _ := by
    refine takeDotted_eq_nil_iff.2 ⟨h.stops isIdentPart_blankPoints, ?_⟩
    rintro c tail rfl
    simp [Breaks, isBlank] at h
  adjustment := h.stops (by decide)

/-- **A variable is taken whole** when what follows is not taken for a part of it. -/
theorem takeVariable_append (hfields : Fields fields) (hnone : v.hasFields = false → fields = [])
    (hadjustment : Adjustment adjustment) (hrest : adjustment = [] → Detached v rest) :
    takeVariable (v.name.toList ++ fields ++ adjustment ++ rest) =
      .ok (.var (String.ofList ('$' :: v.name.toList ++ fields ++ adjustment)), rest) := by
  have hdetached : Stops isIdentPart (adjustment ++ rest) ∧
      (v.hasFields = true → takeDotted (adjustment ++ rest) = ([], adjustment ++ rest)) := by
    cases hadjustment with
    | absent => exact ⟨(hrest rfl).name, (hrest rfl).fields⟩
    | @present inner hinner =>
      have hopen : Stops isIdentPart ('(' :: inner ++ [')'] ++ rest) := stops_cons.2 (by decide)
      exact ⟨hopen, fun _ => takeDotted_eq_nil_iff.2 ⟨hopen, by simp⟩⟩
  obtain ⟨hpart, hpath⟩ := hdetached
  have hident : takeIdent (v.name.toList ++ (fields ++ (adjustment ++ rest))) =
      (v.name.toList, fields ++ (adjustment ++ rest)) := by
    have hstops : Stops isIdentPart (fields ++ (adjustment ++ rest)) :=
      hfields.stops (by decide) hpart
    rw [takeIdent, takeWhile_append v.parts_name hstops, dropWhile_append v.parts_name hstops]
  have hdotted : (if v.hasFields then takeDotted (fields ++ (adjustment ++ rest))
      else ([], fields ++ (adjustment ++ rest))) = (fields, adjustment ++ rest) := by
    by_cases hv : v.hasFields = true
    · rw [if_pos hv, takeDotted_fields hfields (hpath hv)]
    · rw [if_neg hv, hnone (Bool.not_eq_true _ ▸ hv)]
      rfl
  have hadjusted : takeAdjustment? (adjustment ++ rest) = some (adjustment, rest) :=
    takeAdjustment?_append hadjustment fun hnil => (hrest hnil).adjustment
  simp only [List.append_assoc, takeVariable, hident, String.ofList_toList, v.ofName?_name,
    hdotted, hadjusted]

/-- What is taken as a variable, part by part. -/
theorem takeVariable_eq_ok {cs : List Char} {t : Token} (h : takeVariable cs = .ok (t, rest)) :
    ∃ v fields adjustment, Fields fields ∧ (Variable.hasFields v = false → fields = []) ∧
      Adjustment adjustment ∧ (adjustment = [] → Detached v rest) ∧
      cs = v.name.toList ++ fields ++ adjustment ++ rest ∧
      t = .var (String.ofList ('$' :: v.name.toList ++ fields ++ adjustment)) := by
  obtain ⟨hidentSplit, -, hstops⟩ := takeIdent_spec cs
  rcases hi : takeIdent cs with ⟨name, tail⟩
  simp only [hi] at hidentSplit hstops
  simp only [takeVariable, hi] at h
  split at h
  · cases h
  · rename_i v hv
    have hname : v.name.toList = name := by simp [Variable.name_of_ofName? hv]
    have hpath : ∃ fields tail', (if v.hasFields then takeDotted tail else ([], tail)) =
        (fields, tail') ∧ fields ++ tail' = tail ∧ Fields fields ∧
        (v.hasFields = false → fields = []) ∧ Stops isIdentPart tail' ∧
        (v.hasFields = true → takeDotted tail' = ([], tail')) := by
      obtain ⟨hsplit, hfields⟩ := fields_takeDotted hstops
      by_cases hv : v.hasFields = true
      · have hleft := takeDotted_rest tail
        rw [if_pos hv]
        exact ⟨_, _, rfl, hsplit, hfields, fun hnot => by simp [hv] at hnot,
          (takeDotted_eq_nil_iff.1 hleft).1, fun _ => hleft⟩
      · rw [if_neg hv]
        exact ⟨[], tail, rfl, rfl, .nil, fun _ => rfl, hstops, fun hnot => absurd hnot hv⟩
    obtain ⟨fields, tail', hdotted, rfl, hfields, hnone, hpart, hleft⟩ := hpath
    simp only [hdotted] at h
    split at h
    · cases h
    · rename_i adjustment tail'' hadjusted
      obtain ⟨rfl, hadjustment, hopen⟩ := takeAdjustment?_spec hadjusted
      cases h
      subst hname
      refine ⟨v, fields, adjustment, hfields, hnone, hadjustment, ?_, ?_, rfl⟩
      · rintro rfl
        exact ⟨hpart, hleft, hopen rfl⟩
      · rw [← hidentSplit]
        simp

/-- What is taken as a variable is one. -/
theorem takeVariable_spec {cs : List Char} {t : Token} (h : takeVariable cs = .ok (t, rest)) :
    ∃ text, cs = text ++ rest ∧ Lexeme ('$' :: text) t := by
  obtain ⟨v, fields, adjustment, hfields, hnone, hadjustment, -, hsplit, rfl⟩ :=
    takeVariable_eq_ok h
  exact ⟨v.name.toList ++ fields ++ adjustment, hsplit, .var (.mk hfields hnone hadjustment)⟩

end Variables

/-! ## Strings -/

section Strings

variable {delimiter : Char} {body rest : List Char}

/-- **A string is taken up to its delimiter**, whatever follows. -/
theorem takeString_append (hdelimiter : delimiter ≠ '\\') (h : Body delimiter body)
    (rest : List Char) : takeString delimiter (body ++ delimiter :: rest) = some (body, rest) := by
  induction h with
  | nil =>
    rw [List.nil_append, takeString, if_pos rfl]
    · rintro hnot -
      exact hdelimiter hnot
    · rintro c tail hnot -
      exact hdelimiter hnot
  | escaped hbody ih =>
    simp only [List.cons_append, takeString, ih, Option.map_some]
  | @plain c body hslash hne hbody ih =>
    rw [List.cons_append, takeString, if_neg hne, ih, Option.map_some]
    · rintro hnot -
      exact hslash hnot
    · rintro c' tail hnot -
      exact hslash hnot

/-- What is taken as a string is a body and its delimiter. -/
theorem takeString_spec {cs : List Char} (h : takeString delimiter cs = some (body, rest)) :
    cs = body ++ delimiter :: rest ∧ Body delimiter body := by
  induction cs using takeString.induct delimiter generalizing body with
  | case1 => cases h
  | case2 => cases h
  | case3 c tail ih =>
    simp only [takeString, Option.map_eq_some_iff, Prod.exists, Prod.mk.injEq] at h
    obtain ⟨body, rest, htake, rfl, rfl⟩ := h
    obtain ⟨rfl, hbody⟩ := ih htake
    exact ⟨rfl, .escaped hbody⟩
  | case4 tail hlone hescape =>
    rw [takeString, if_pos rfl] at h
    · cases h
      exact ⟨rfl, .nil⟩
    · exact hlone
    · exact hescape
  | case5 c tail hlone hescape hne ih =>
    rw [takeString, if_neg hne] at h
    · simp only [Option.map_eq_some_iff, Prod.exists, Prod.mk.injEq] at h
      obtain ⟨body, rest, htake, rfl, rfl⟩ := h
      obtain ⟨rfl, hbody⟩ := ih htake
      refine ⟨rfl, .plain ?_ hne hbody⟩
      -- A backslash here would have been an escape, or the end of the text.
      rintro rfl
      cases hsplit : body ++ delimiter :: rest with
      | nil => exact hlone rfl hsplit
      | cons c' tail' => exact hescape c' tail' rfl hsplit
    · exact hlone
    · exact hescape

end Strings

/-! ## Operators -/

section Operators

variable {sign : Char} {followed : Bool} {rest rest' : List Char} {o : CompareOp} {t : Token}

/-- The equals sign that may follow the first sign of an operator. -/
def equals (followed : Bool) : List Char := if followed then ['='] else []

theorem exists_equals (rest : List Char) :
    ∃ followed tail, rest = equals followed ++ tail ∧
      (followed = false → Stops (· == '=') tail) := by
  match rest with
  | [] => exact ⟨false, [], rfl, fun _ => stops_nil⟩
  | c :: tail =>
    by_cases hc : c = '='
    · exact ⟨true, tail, by rw [hc]; rfl, fun hnot => by cases hnot⟩
    · exact ⟨false, c :: tail, rfl, fun _ => stops_cons.2 (by simpa using hc)⟩

theorem takeOp_equals (h : followed = false → Stops (· == '=') rest) :
    takeOp sign (equals followed ++ rest) =
      match compareOp? sign followed with
      | some o => .ok (.op o, rest)
      | none => .error (.unsupportedOperator sign) := by
  cases followed with
  | true => rfl
  | false =>
    cases rest with
    | nil => rfl
    | cons c tail =>
      have hc : c ≠ '=' := by simpa [stops_cons] using h rfl
      cases ho : compareOp? sign false <;> simp [takeOp, equals, hc, ho]

/-- The operator of a sign is spelled by it and the equals sign, if that follows. -/
theorem symbol_of_compareOp? (h : compareOp? sign followed = some o) :
    o.symbol.toList = sign :: equals followed := by
  unfold compareOp? at h
  split at h <;> cases h <;> decide

/-- Every operator is read from its first sign and whether the equals sign follows. -/
theorem exists_compareOp? (o : CompareOp) :
    ∃ sign followed, compareOp? sign followed = some o ∧
      (sign = '=' ∨ sign = '!' ∨ sign = '<' ∨ sign = '>') := by
  cases o with
  | eq => exact ⟨'=', true, rfl, by decide⟩
  | notEq => exact ⟨'!', true, rfl, by decide⟩
  | lt => exact ⟨'<', false, rfl, by decide⟩
  | ltEq => exact ⟨'<', true, rfl, by decide⟩
  | gt => exact ⟨'>', false, rfl, by decide⟩
  | gtEq => exact ⟨'>', true, rfl, by decide⟩

/-- **An operator is taken whole** when no equals sign follows it. -/
theorem takeOp_append (o : CompareOp) (hrest : Stops (· == '=') rest) :
    ∃ sign tail, o.symbol.toList = sign :: tail ∧
      (sign = '=' ∨ sign = '!' ∨ sign = '<' ∨ sign = '>') ∧
      takeOp sign (tail ++ rest) = .ok (.op o, rest) := by
  obtain ⟨sign, followed, ho, hsign⟩ := exists_compareOp? o
  refine ⟨sign, equals followed, symbol_of_compareOp? ho, hsign, ?_⟩
  rw [takeOp_equals fun _ => hrest, ho]

/-- What is taken as an operator is one. -/
theorem takeOp_spec (h : takeOp sign rest = .ok (t, rest')) :
    ∃ tail, rest = tail ++ rest' ∧ Lexeme (sign :: tail) t := by
  obtain ⟨followed, tail, rfl, hstops⟩ := exists_equals rest
  rw [takeOp_equals hstops] at h
  split at h
  · rename_i o ho
    cases h
    exact ⟨equals followed, rfl, symbol_of_compareOp? ho ▸ .op o⟩
  · cases h

end Operators

end ItemClient.Filter
