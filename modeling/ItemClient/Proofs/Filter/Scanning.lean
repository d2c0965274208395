import ItemClient.Proofs.Filter.Lexemes
import ItemClient.Proofs.Outcomes

/-!
# Scanning

A text is split into tokens exactly as its lexemes and the white space between them say.

**Soundness** (`exists_layout`). A text is laid out as its tokens: it is their lexemes, one each,
with white space between, and each lexeme is taken from the front of what is left at its place.

**Completeness** (`Scans.taken`, `Scans.blanks`). A lexeme in front of a text is scanned as its
token when it is taken there. So it is unless the text goes on with it (`Apart`). A layout does
without this condition: `ab` can be laid out as the names `a` and `b` too, with nothing between
them, but is never scanned so.
-/

namespace ItemClient.Filter

open Text Grammar

variable {n : Nat} {c : Char} {text rest rest' : List Char} {t : Token} {ts : List Token}

/-! ## The first character of a token -/

/-- The characters that alone tell which token they begin. -/
def signs : List Char := ['.', '=', '!', '<', '>', '"', '\'', '$']

theorem not_mem_signs {p : Char → Bool} (h : p c = true) (hp : signs.any p = false) :
    c ∉ signs :=
  fun hc => List.any_eq_false.1 hp c hc h

theorem takeToken_of_not_mem_signs (h : c ∉ signs) (rest : List Char) :
    takeToken n c rest =
      if c.isDigit ∨ (c = '-' ∧ startsWithDigit rest) then .ok (takeNumber (c :: rest))
      else if isIdentStart c then
        .ok (.ident (String.ofList (takeIdent (c :: rest)).1), (takeIdent (c :: rest)).2)
      else .error (.unexpectedCharacter c (n - byteLength (c :: rest))) := by
  simp only [signs, List.mem_cons, List.not_mem_nil, or_false, not_or] at h
  obtain ⟨hdot, heq, hnot, hless, hgreater, hquote, hapostrophe, hdollar⟩ := h
  simp [takeToken, hdot, heq, hnot, hless, hgreater, hquote, hapostrophe, hdollar]

theorem takeToken_of_isIdentStart (h : isIdentStart c = true) (rest : List Char) :
    takeToken n c rest =
      .ok (.ident (String.ofList (takeIdent (c :: rest)).1), (takeIdent (c :: rest)).2) := by
  have hdigit : c.isDigit = false := by
    by_contra hdigit
    exact ne_of_class h (isIdentStart_of_isDigit (Bool.not_eq_false _ ▸ hdigit)) rfl
  have hminus : c ≠ '-' := ne_of_class h (by decide)
  rw [takeToken_of_not_mem_signs (not_mem_signs h (by decide)), if_neg, if_pos h]
  simp [hdigit, hminus]

theorem takeToken_of_number (h : c.isDigit ∨ (c = '-' ∧ startsWithDigit rest)) :
    takeToken n c rest = .ok (takeNumber (c :: rest)) := by
  have hc : c ∉ signs := by
    rcases h with hdigit | ⟨rfl, -⟩
    · exact not_mem_signs hdigit (by decide)
    · decide
  rw [takeToken_of_not_mem_signs hc, if_pos h]

theorem takeToken_of_sign (h : c = '=' ∨ c = '!' ∨ c = '<' ∨ c = '>') (rest : List Char) :
    takeToken n c rest = takeOp c rest := by
  rw [takeToken, if_neg, if_pos h]
  rcases h with rfl | rfl | rfl | rfl <;> decide

theorem takeToken_dollar (n : Nat) (rest : List Char) :
    takeToken n '$' rest = takeVariable rest := rfl

/-! ## One token -/

/-- A number begins with a digit or with a minus sign before one. -/
theorem exists_number_head {minus whole : List Char} {negative : Bool}
    (hminus : Minus minus negative) (hwhole : Digits whole) (rest : List Char) :
    ∃ c tail, minus ++ whole ++ rest = c :: tail ∧ isBlank c = false ∧
      (c.isDigit ∨ (c = '-' ∧ startsWithDigit tail)) := by
  obtain ⟨d, tail, rfl, hd⟩ := hwhole.exists_cons
  cases hminus with
  | absent => exact ⟨d, tail ++ rest, rfl, isBlank_of_isDigit hd, .inl hd⟩
  | present => exact ⟨'-', d :: tail ++ rest, rfl, by decide, .inr ⟨rfl, hd⟩⟩

/-- What may follow the lexeme of a token without being taken for a part of it. -/
def Apart : Token → List Char → Prop
  | .ident _ => Stops isIdentPart
  | .op _ => Stops (· == '=')
  | .int _ | .float _ | .var _ => Breaks
  | .dot | .str _ => fun _ => True

/-- A text is taken as a token from the front of what follows it. -/
def Taken (n : Nat) (text : List Char) (t : Token) (rest : List Char) : Prop :=
  ∃ c tail, text ++ rest = c :: tail ∧ isBlank c = false ∧ takeToken n c tail = .ok (t, rest)

/-- **A lexeme is taken as its token.** -/
theorem takeToken_append (h : Lexeme text t) (hrest : Apart t rest) (n : Nat) :
    Taken n text t rest := by
  cases h with
  | ident hname =>
    have htake : takeIdent (text ++ rest) = (text, rest) := takeIdent_append hname hrest
    cases hname with
    | @mk c cs hc hcs =>
      refine ⟨c, cs ++ rest, rfl, isBlank_of_isIdentStart hc, ?_⟩
      rw [List.cons_append] at htake
      rw [takeToken_of_isIdentStart hc, htake]
  | dot => exact ⟨'.', rest, rfl, by decide, rfl⟩
  | op o =>
    obtain ⟨sign, tail, hsymbol, hsign, htake⟩ := takeOp_append o hrest
    refine ⟨sign, tail ++ rest, by rw [hsymbol]; rfl, ?_, ?_⟩
    · rcases hsign with rfl | rfl | rfl | rfl <;> decide
    · rw [takeToken_of_sign hsign, htake]
  | @str delimiter body hdelimiter hbody =>
    refine ⟨delimiter, body ++ delimiter :: rest, by simp, ?_, ?_⟩
    · rcases hdelimiter with rfl | rfl <;> decide
    · have htake := takeString_append (by rcases hdelimiter with rfl | rfl <;> decide) hbody rest
      rcases hdelimiter with rfl | rfl <;> simp [takeToken, htake]
  | int hinteger =>
    cases hinteger with
    | mk hminus hwhole =>
      obtain ⟨c, tail, htext, hblank, hnumber⟩ := exists_number_head hminus hwhole rest
      refine ⟨c, tail, htext, hblank, ?_⟩
      have htake := takeNumber_append hminus hwhole .absent .absent hrest
      simp only [List.append_nil] at htake
      rw [takeToken_of_number hnumber, ← htext, htake]
      rfl
  | float hfloating =>
    cases hfloating with
    | @mk minus whole fraction exponent _ _ _ hminus hwhole hfraction hexponent hsome =>
      obtain ⟨c, tail, htext, hblank, hnumber⟩ :=
        exists_number_head hminus hwhole (fraction ++ exponent ++ rest)
      simp only [← List.append_assoc] at htext
      refine ⟨c, tail, htext, hblank, ?_⟩
      rw [takeToken_of_number hnumber, ← htext,
        takeNumber_append hminus hwhole hfraction hexponent hrest]
      simp only [if_neg (not_and_or.2 hsome)]
  | var hplaceholder =>
    cases hplaceholder with
    | @mk v fields adjustment hfields hnone hadjustment =>
      refine ⟨'$', v.name.toList ++ fields ++ adjustment ++ rest, by simp, by decide, ?_⟩
      rw [takeToken_dollar, takeVariable_append hfields hnone hadjustment fun _ => hrest.detached v]

theorem Breaks.apart (h : Breaks rest) (t : Token) : Apart t rest := by
  cases t with
  | ident => exact h.stops isIdentPart_blankPoints
  | op => exact h.stops (by decide)
  | int | float | var => exact h
  | dot | str => exact trivial

/-- A lexeme begins with something else than white space. -/
theorem Lexeme.exists_cons (h : Lexeme text t) :
    ∃ c tail, text = c :: tail ∧ isBlank c = false := by
  obtain ⟨c, tail, htext, hblank, -⟩ := takeToken_append h (breaks_nil.apart t) 0
  rw [List.append_nil] at htext
  exact ⟨c, tail, htext, hblank⟩

theorem Lexeme.ne_nil (h : Lexeme text t) : text ≠ [] := by
  obtain ⟨c, tail, rfl, -⟩ := h.exists_cons
  exact List.cons_ne_nil c tail

/-- A lexeme in front of a text takes its first character. -/
theorem Lexeme.of_cons_eq (h : Lexeme text t) (hsplit : c :: rest = text ++ rest') :
    ∃ tail, rest = tail ++ rest' ∧ Lexeme (c :: tail) t := by
  rcases List.cons_eq_append_iff.1 hsplit with ⟨hnil, -⟩ | ⟨tail, rfl, hrest⟩
  · exact absurd hnil h.ne_nil
  · exact ⟨tail, hrest, h⟩

/-- **What is taken as a token is a lexeme of it.** -/
theorem takeToken_spec (h : takeToken n c rest = .ok (t, rest')) :
    ∃ tail, rest = tail ++ rest' ∧ Lexeme (c :: tail) t := by
  rw [takeToken] at h
  split_ifs at h with hdot hop hquote hdollar hnumber hident
  · cases h
    exact ⟨[], rfl, hdot ▸ .dot⟩
  · exact takeOp_spec h
  · split at h
    · rename_i body rest'' htake
      cases h
      obtain ⟨rfl, hbody⟩ := takeString_spec htake
      exact ⟨body ++ [c], by simp, .str hquote hbody⟩
    · cases h
  · obtain ⟨tail, hrest, hlexeme⟩ := takeVariable_spec h
    exact ⟨tail, hrest, hdollar ▸ hlexeme⟩
  · have hdigit : startsWithDigit (takeMinus (c :: rest)).2 = true := by
      rcases hnumber with hdigit | ⟨rfl, hdigit⟩
      · rw [takeMinus]
        · exact hdigit
        · rintro tail hminus
          cases hminus
          cases hdigit
      · exact hdigit
    obtain ⟨text, hsplit, hlexeme⟩ := takeNumber_spec hdigit
    rw [Except.ok.inj h] at hsplit hlexeme
    exact hlexeme.of_cons_eq hsplit
  · cases h
    obtain ⟨hsplit, -, -⟩ := takeIdent_spec (c :: rest)
    exact (Lexeme.ident (name_of_takeIdent hident)).of_cons_eq hsplit.symm

/-- What is taken does not depend on the length from which offsets are counted. -/
theorem Taken.congr_length (h : Taken n text t rest) (m : Nat) : Taken m text t rest := by
  obtain ⟨c, tail, htext, hblank, htake⟩ := h
  refine ⟨c, tail, htext, hblank, ?_⟩
  rw [takeToken] at htake ⊢
  split_ifs at htake ⊢ <;> exact htake

/-- What is taken from the front of a text is a lexeme. -/
theorem Taken.lexeme (h : Taken n text t rest) : Lexeme text t := by
  obtain ⟨c, tail, htext, -, htake⟩ := h
  obtain ⟨tail', rfl, hlexeme⟩ := takeToken_spec htake
  have hsplit : text = c :: tail' := List.append_cancel_right htext
  rwa [hsplit]

/-! ## Layouts -/

/-- A lexeme with the white space before it. -/
@[ext]
structure Word where
  /-- The white space. -/
  blanks : List Char
  /-- The lexeme. -/
  text : List Char
  /-- The token of the lexeme. -/
  token : Token
  areBlank : Blanks blanks
  lexeme : Lexeme text token

/-- Words one after the other, and what follows the last. -/
def Word.write (words : List Word) (final : List Char) : List Char :=
  words.foldr (fun w rest => w.blanks ++ w.text ++ rest) final

/-- Each word is taken from the front of the words after it. -/
def Word.AreTaken (n : Nat) (final : List Char) : List Word → Prop
  | [] => True
  | w :: words => Taken n w.text w.token (write words final) ∧ AreTaken n final words

/-- A text cut into lexemes, with white space before, between and after them. -/
@[ext]
structure Layout where
  /-- The lexemes in order. -/
  words : List Word
  /-- The white space after the last. -/
  final : List Char
  areBlank : Blanks final

namespace Layout

/-- The text that is laid out. -/
def written (l : Layout) : List Char := Word.write l.words l.final

/-- The tokens of the lexemes. -/
def tokens (l : Layout) : List Token := l.words.map Word.token

/-- A layout with one more blank in front. -/
def indent (hc : isBlank c = true) : Layout → Layout
  | ⟨[], final, hfinal⟩ => ⟨[], c :: final, List.forall_mem_cons.2 ⟨hc, hfinal⟩⟩
  | ⟨w :: words, final, hfinal⟩ =>
      ⟨{ w with blanks := c :: w.blanks, areBlank := List.forall_mem_cons.2 ⟨hc, w.areBlank⟩ } ::
        words, final, hfinal⟩

theorem written_indent (hc : isBlank c = true) (l : Layout) :
    (l.indent hc).written = c :: l.written := by
  rcases l with ⟨_ | ⟨w, words⟩, final, hfinal⟩ <;> rfl

theorem tokens_indent (hc : isBlank c = true) (l : Layout) : (l.indent hc).tokens = l.tokens := by
  rcases l with ⟨_ | ⟨w, words⟩, final, hfinal⟩ <;> rfl

theorem areTaken_indent (hc : isBlank c = true) {l : Layout}
    (h : Word.AreTaken n l.final l.words) :
    Word.AreTaken n (l.indent hc).final (l.indent hc).words := by
  rcases l with ⟨_ | ⟨w, words⟩, final, hfinal⟩ <;> exact h

end Layout

/-- **Soundness.** A text is laid out as the tokens that it is split into. -/
theorem exists_layout {fuel : Nat} {cs : List Char} (hfuel : cs.length ≤ fuel)
    (h : tokens n fuel cs = .ok ts) :
    ∃ l : Layout, l.written = cs ∧ l.tokens = ts ∧ Word.AreTaken n l.final l.words := by
  have hnone : Blanks [] := fun x hx => by cases hx
  induction fuel, cs using tokens.induct n generalizing ts with
  | case1 fuel =>
    rw [tokens] at h
    cases h
    exact ⟨⟨[], [], hnone⟩, rfl, rfl, trivial⟩
  | case2 cs hne => exact absurd (List.eq_nil_of_length_eq_zero (Nat.le_zero.1 hfuel)) hne
  | case3 fuel c rest hblank ih =>
    rw [tokens, if_pos hblank] at h
    obtain ⟨l, rfl, rfl, htaken⟩ := ih (Nat.le_of_succ_le_succ hfuel) h
    exact ⟨l.indent hblank, l.written_indent hblank, l.tokens_indent hblank,
      Layout.areTaken_indent hblank htaken⟩
  | case4 fuel c rest hblank fault htake =>
    rw [tokens, if_neg hblank, htake] at h
    cases h
  | case5 fuel c rest hblank t rest' htake ih =>
    rw [tokens, if_neg hblank, htake] at h
    obtain ⟨ts', hts, rfl⟩ := Result.map_eq_ok.1 h
    obtain ⟨tail, rfl, hlexeme⟩ := takeToken_spec htake
    -- The token has taken a character at least.
    have hlength : rest'.length ≤ fuel := by
      simp only [List.length_cons, List.length_append] at hfuel
      omega
    obtain ⟨l, rfl, rfl, htaken⟩ := ih hlength hts
    have htext : Taken n (c :: tail) t l.written :=
      ⟨c, tail ++ l.written, rfl, Bool.not_eq_true _ ▸ hblank, htake⟩
    exact ⟨⟨⟨[], c :: tail, t, hnone, hlexeme⟩ :: l.words, l.final, l.areBlank⟩, rfl, rfl, htext,
      htaken⟩

/-- A text that lexemes spell, with white space before, between and after them. -/
inductive Spelled : List Char → List Token → Prop
  | nil {blanks : List Char} : Blanks blanks → Spelled blanks []
  | cons {blanks text rest : List Char} {t : Token} {ts : List Token} :
      Blanks blanks → Lexeme text t → Spelled rest ts → Spelled (blanks ++ text ++ rest) (t :: ts)

theorem Word.spelled_write {final : List Char} (hfinal : Blanks final) (words : List Word) :
    Spelled (write words final) (words.map Word.token) := by
  induction words with
  | nil => exact .nil hfinal
  | cons w words ih => exact .cons w.areBlank w.lexeme ih

/-- Tokens are spelled by the text that they were split from. -/
theorem spelled_of_tokens {fuel : Nat} {cs : List Char} (hfuel : cs.length ≤ fuel)
    (h : tokens n fuel cs = .ok ts) : Spelled cs ts := by
  obtain ⟨l, rfl, rfl, -⟩ := exists_layout hfuel h
  exact Word.spelled_write l.areBlank l.words

/-! ## All tokens -/

/-- A text is split into tokens, whatever the fuel beyond its length. -/
def Scans (n : Nat) (cs : List Char) (ts : List Token) : Prop :=
  ∀ fuel, cs.length ≤ fuel → tokens n fuel cs = .ok ts

theorem scans_nil (n : Nat) : Scans n [] [] := by
  intro fuel hfuel
  cases fuel <;> rfl

/-- White space in front of a text is skipped. -/
theorem Scans.blanks {bs : List Char} (hbs : Blanks bs) (h : Scans n rest ts) :
    Scans n (bs ++ rest) ts := by
  induction bs with
  | nil => exact h
  | cons b bs ih =>
    intro fuel hfuel
    cases fuel with
    | zero => simp at hfuel
    | succ fuel =>
      rw [List.cons_append, tokens, if_pos (hbs b List.mem_cons_self)]
      exact ih (fun c hc => hbs c (List.mem_cons_of_mem _ hc)) fuel (Nat.le_of_succ_le_succ hfuel)

/-- What is taken from the front of a text is split off as its token. -/
theorem Scans.taken (htaken : Taken n text t rest) (h : Scans n rest ts) :
    Scans n (text ++ rest) (t :: ts) := by
  intro fuel hfuel
  obtain ⟨c, tail, htext, hblank, htake⟩ := htaken
  obtain ⟨tail', rfl, -⟩ := takeToken_spec htake
  rw [htext] at hfuel ⊢
  cases fuel with
  | zero => simp at hfuel
  | succ fuel =>
    have hlength : rest.length ≤ fuel := by
      simp only [List.length_cons, List.length_append] at hfuel
      omega
    rw [tokens, if_neg (by simp [hblank]), htake]
    simp only [h fuel hlength, Except.map]

/-- A lexeme in front of a text that it is apart from is split off as its token. -/
theorem Scans.lexeme (hlexeme : Lexeme text t) (hapart : Apart t rest) (h : Scans n rest ts) :
    Scans n (text ++ rest) (t :: ts) :=
  .taken (takeToken_append hlexeme hapart n) h

end ItemClient.Filter
