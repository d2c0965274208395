import ItemClient.Proofs.Filter.Longest

/-!
# White space between tokens

An expression that is split into tokens is laid out as their lexemes, with white space before,
between and after them (`Layout`). Here is what this says about the expression as a whole, be it a
comparison or not (`Lossless`): the lexeme of a token is what is stored of it, each number is as
long as possible, and white space can be put in around the lexemes without changing the tokens.

**White space that comes in** (`Taken.of_loosens`). A lexeme is taken from the front of a text by
looking at what follows it: at one character, or at a few for a number and for the fields of a
variable. White space that comes in behind the lexeme can only end what was looked at sooner. So
each kind of lexeme is taken there too, for its own reason.

Main result: `tokenize_lossless`.
-/

namespace ItemClient.Filter

open Text Grammar

variable {n : Nat} {c : Char} {text rest rest' : List Char} {t : Token} {ts : List Token}

/-! ## One token -/

theorem Detached.of_loosens {v : Variable} (h : Detached v rest) (hloose : Loosens rest rest') :
    Detached v rest' where
  name := hloose.stops isIdentPart_blankPoints h.name
  fields hv := by
    obtain ⟨hpart, hpoint⟩ := takeDotted_eq_nil_iff.1 (h.fields hv)
    refine takeDotted_eq_nil_iff.2 ⟨hloose.stops isIdentPart_blankPoints hpart, ?_⟩
    rintro c tail rfl
    by_contra hc
    have hstart : isIdentStart c = true := Bool.not_eq_false _ ▸ hc
    -- The dot and the first character of the name would stand in the other text too.
    have hfield : ['.', c] <+: rest := by
      refine hloose.isPrefix ⟨tail, rfl⟩ ?_
      simpa using ⟨by decide, isBlank_of_isIdentStart hstart⟩
    obtain ⟨tail', rfl⟩ := hfield
    exact hc (hpoint c tail' rfl)
  adjustment := hloose.stops (by decide) h.adjustment

namespace Taken

/-- A number that is taken is the longest. -/
theorem longest (h : Taken n text t rest) (ht : t.isNumber = true) :
    Longest text t (text ++ rest) := by
  obtain ⟨m, rfl, htoken⟩ := h.lexeme.exists_numeral ht
  obtain ⟨c, tail, htext, hblank, htake⟩ := h
  obtain ⟨c', tail', htext', -, hnumber⟩ := m.exists_head rest
  cases htext.symm.trans htext'
  rw [takeToken_of_number hnumber, ← htext, Except.ok.injEq] at htake
  obtain ⟨text', hsplit, hlongest⟩ := Longest.of_takeNumber (m.startsWithDigit_takeMinus rest)
  rw [htake] at hsplit hlongest
  obtain rfl : m.chars = text' := List.append_cancel_right hsplit
  exact hlongest

end Taken

/-- The longest number in front of a text is taken. -/
theorem Longest.taken (h : Longest text t (text ++ rest)) (n : Nat) : Taken n text t rest := by
  obtain ⟨m, rfl⟩ := h.isNumeral
  obtain ⟨c, tail, htext, hblank, hnumber⟩ := m.exists_head rest
  refine ⟨c, tail, htext, hblank, ?_⟩
  rw [takeToken_of_number hnumber, ← htext, h.takeNumber_eq]

namespace Taken

/-- A name that is taken does not go on. -/
theorem of_ident {name : List Char} (hname : Name name)
    (h : Taken n name (.ident (String.ofList name)) rest) : Stops isIdentPart rest := by
  cases hname with
  | @mk c cs hc hcs =>
    obtain ⟨c', tail, htext, -, htake⟩ := h
    obtain ⟨rfl, rfl⟩ := List.cons.inj htext
    rw [takeToken_of_isIdentStart hc] at htake
    have hrest : (takeIdent (c :: (cs ++ rest))).2 = rest := congrArg Prod.snd (Except.ok.inj htake)
    have hstops := (takeIdent_spec (c :: (cs ++ rest))).2.2
    rwa [hrest] at hstops

/-- An operator that is taken takes an equals sign with it, or none follows. -/
theorem of_op {o : CompareOp} (h : Taken n o.symbol.toList (.op o) rest)
    (hrest : Stops (· == '=') rest → Stops (· == '=') rest') :
    Taken n o.symbol.toList (.op o) rest' := by
  obtain ⟨sign, followed, ho, hsign⟩ := exists_compareOp? o
  obtain ⟨c, tail, htext, hblank, htake⟩ := h
  rw [symbol_of_compareOp? ho] at htext ⊢
  obtain ⟨rfl, rfl⟩ := List.cons.inj htext
  refine ⟨sign, equals followed ++ rest', rfl, hblank, ?_⟩
  rw [takeToken_of_sign hsign] at htake ⊢
  have hstops : followed = false → Stops (· == '=') rest := by
    rintro rfl
    obtain ⟨followed, tail, rfl, hstops⟩ := exists_equals rest
    cases followed with
    | false => exact hstops rfl
    | true =>
      have htake : takeOp sign (equals true ++ tail) = .ok (.op o, equals true ++ tail) := htake
      rw [takeOp_equals hstops] at htake
      split at htake <;> simp [equals] at htake
  rw [takeOp_equals fun hnot => hrest (hstops hnot), ho]

/-- A variable that is taken is taken in front of any text that does not go on with it. -/
theorem of_var (hplaceholder : Placeholder text)
    (h : Taken n text (.var (String.ofList text)) rest) (hloose : Loosens rest rest') :
    Taken n text (.var (String.ofList text)) rest' := by
  cases hplaceholder with
  | @mk v fields adjustment =>
    obtain ⟨c, tail, htext, hblank, htake⟩ := h
    obtain ⟨rfl, rfl⟩ := List.cons.inj htext
    rw [takeToken_dollar] at htake
    obtain ⟨v', fields', adjustment', hfields, hnone, hadjustment, hdetached, hsplit, -⟩ :=
      takeVariable_eq_ok htake
    have hparts : v.name.toList ++ fields ++ adjustment =
        v'.name.toList ++ fields' ++ adjustment' := List.append_cancel_right hsplit
    refine ⟨'$', v.name.toList ++ fields ++ adjustment ++ rest', rfl, hblank, ?_⟩
    rw [takeToken_dollar, hparts, takeVariable_append hfields hnone hadjustment fun hnil =>
      (hdetached hnil).of_loosens hloose]
    simp only [List.cons_append, ← hparts]

/-- **White space that comes in later changes nothing.** -/
theorem of_loosens (h : Taken n text t rest) (hloose : Loosens rest rest') :
    Taken n text t rest' := by
  have hlexeme := h.lexeme
  cases hlexeme with
  | ident hname =>
    exact takeToken_append (.ident hname)
      (hloose.stops isIdentPart_blankPoints (h.of_ident hname)) n
  | dot => exact takeToken_append .dot trivial n
  | op o => exact h.of_op (hloose.stops (by decide))
  | str hdelimiter hbody => exact takeToken_append (.str hdelimiter hbody) trivial n
  | int => exact ((h.longest rfl).of_loosens hloose).taken n
  | float => exact ((h.longest rfl).of_loosens hloose).taken n
  | var hplaceholder => exact h.of_var hplaceholder hloose

end Taken

/-! ## Stored texts -/

/-- A token is written as what is stored of it: a string between two delimiters of one kind, a
comparison as its sign, a dot as a dot, and any other token as its text. -/
def Token.WrittenAs : Token → List Char → Prop
  | ident stored, text | int stored, text | float stored, text | var stored, text =>
      text = stored.toList
  | dot, text => text = ['.']
  | op o, text => text = o.symbol.toList
  | str body, text => ∃ delimiter, (delimiter = '"' ∨ delimiter = '\'') ∧
      text = delimiter :: body.toList ++ [delimiter]

theorem Lexeme.writtenAs (h : Lexeme text t) : t.WrittenAs text := by
  cases h with
  | dot => rfl
  | op o => rfl
  | str hdelimiter hbody => exact ⟨_, hdelimiter, by rw [String.toList_ofList]⟩
  | _ => exact String.toList_ofList.symm

/-- The lexeme of a token is known from its first character. -/
theorem Token.WrittenAs.unique {text text' : List Char} (h : t.WrittenAs text)
    (h' : t.WrittenAs text') (hhead : text.head? = text'.head?) : text = text' := by
  cases t with
  | str body =>
    obtain ⟨delimiter, -, rfl⟩ := h
    obtain ⟨delimiter', -, rfl⟩ := h'
    obtain rfl : delimiter = delimiter' := by simpa using hhead
    rfl
  | _ => exact Eq.trans h (Eq.symm h')

/-! ## Layouts of a text -/

namespace Word

variable {words words' : List Word} {final final' : List Char}

theorem stops_isBlank (w : Word) (rest : List Char) : Stops isBlank (w.text ++ rest) := by
  obtain ⟨c, tail, htext, hc⟩ := w.lexeme.exists_cons
  rw [htext]
  exact stops_cons.2 hc

/-- A text is laid out as given tokens in one way at most. -/
theorem write_inj (htokens : words.map Word.token = words'.map Word.token)
    (h : write words final = write words' final') : words = words' ∧ final = final' := by
  induction words generalizing words' with
  | nil =>
    obtain rfl : words' = [] := by simpa using htokens.symm
    exact ⟨rfl, h⟩
  | cons w words ih =>
    obtain ⟨w', words', rfl⟩ : ∃ w' ws, words' = w' :: ws := by
      cases words' with
      | nil => simp at htokens
      | cons w' ws => exact ⟨w', ws, rfl⟩
    obtain ⟨htoken, htokens⟩ := List.cons.inj htokens
    have hsplit : w.blanks ++ (w.text ++ write words final) =
        w'.blanks ++ (w'.text ++ write words' final') := by
      simpa [write] using h
    -- White space ends where a lexeme begins.
    have hblanks : w.blanks = w'.blanks := by
      have htake := congrArg (List.takeWhile isBlank) hsplit
      rwa [takeWhile_append w.areBlank (w.stops_isBlank _),
        takeWhile_append w'.areBlank (w'.stops_isBlank _)] at htake
    rw [hblanks] at hsplit
    have hrest := List.append_cancel_left hsplit
    have htext : w.text = w'.text := by
      refine w.lexeme.writtenAs.unique (htoken ▸ w'.lexeme.writtenAs) ?_
      obtain ⟨c, tail, hc, -⟩ := w.lexeme.exists_cons
      obtain ⟨c', tail', hc', -⟩ := w'.lexeme.exists_cons
      rw [hc, hc'] at hrest ⊢
      exact congrArg some (List.cons.inj hrest).1
    rw [htext] at hrest
    obtain ⟨rfl, rfl⟩ := ih htokens (List.append_cancel_left hrest)
    exact ⟨by rw [Word.ext hblanks htext htoken], rfl⟩

/-- A word in its place is taken there. -/
theorem AreTaken.taken {before after : List Word} {w : Word}
    (h : AreTaken n final (before ++ w :: after)) :
    Taken n w.text w.token (write after final) := by
  induction before with
  | nil => exact h.1
  | cons _ before ih => exact ih h.2

/-! ## More white space -/

/-- The same lexeme with white space put in before it. -/
structure Widens (w w' : Word) : Prop where
  blanks : w.blanks.Sublist w'.blanks
  text : w'.text = w.text
  token : w'.token = w.token

theorem loosens_write (hfinal : Blanks final') (h : List.Forall₂ Widens words words') :
    Loosens (write words final) (write words' final') := by
  induction h with
  | nil => exact hfinal.breaks.loosens _
  | @cons w w' words words' hw hwords ih =>
    cases hblanks : w'.blanks with
    | nil =>
      have hnone : w.blanks = [] := List.sublist_nil.1 (hblanks ▸ hw.blanks)
      simpa [write, hnone, hblanks, hw.text] using ih.append w.text
    | cons b blanks =>
      have hb : isBlank b = true := w'.areBlank b (hblanks ▸ List.mem_cons_self)
      have hbreaks : Breaks (write (w' :: words') final') := by
        simpa [write, hblanks] using breaks_cons.2 hb
      exact hbreaks.loosens _

/-- **White space is put in without changing the tokens.** -/
theorem scans_write (hfinal : Blanks final') (htaken : AreTaken n final words)
    (h : List.Forall₂ Widens words words') (m : Nat) :
    Scans m (write words' final') (words.map Word.token) := by
  induction h with
  | nil =>
    have hnil := (scans_nil m).blanks hfinal
    rwa [List.append_nil] at hnil
  | @cons w w' words words' hw hwords ih =>
    have hword : Taken m w.text w.token (write words' final') :=
      (htaken.1.of_loosens (loosens_write hfinal hwords)).congr_length m
    have hscans := ((ih htaken.2).taken hword).blanks w'.areBlank
    rw [← hw.text, ← List.append_assoc] at hscans
    exact hscans

end Word

/-- The same lexemes with white space put in before the first, between two, or after the last. -/
structure Layout.Widens (l l' : Layout) : Prop where
  words : List.Forall₂ Word.Widens l.words l'.words
  final : l.final.Sublist l'.final

/-- An expression is exactly the lexemes of its tokens with white space around them. -/
structure Lossless (e : String) (ts : List Token) (l : Layout) : Prop where
  written : l.written = e.toList
  tokens : l.tokens = ts
  /-- It is these in no other way. -/
  unique : ∀ l' : Layout, l'.written = e.toList → l'.tokens = ts → l' = l
  stored : ∀ w ∈ l.words, w.token.WrittenAs w.text
  /-- A number is the longest that the rest of the expression begins with. -/
  numbers : ∀ before w after, l.words = before ++ w :: after → w.token.isNumber = true →
    Longest w.text w.token (w.text ++ Word.write after l.final)
  /-- White space can be put in anywhere between the lexemes. -/
  widened : ∀ l' : Layout, l.Widens l' → tokenize (String.ofList l'.written) = .ok ts

/-- **Nothing is lost and nothing invented.** -/
theorem tokenize_lossless {e : String} (h : tokenize e = .ok ts) : ∃ l, Lossless e ts l := by
  obtain ⟨l, hwritten, rfl, htaken⟩ := exists_layout le_rfl h
  refine ⟨l, ?_⟩
  constructor
  case written => exact hwritten
  case tokens => rfl
  case unique =>
    intro l' hwritten' htokens
    obtain ⟨hwords, hfinal⟩ :=
      Word.write_inj htokens (hwritten'.trans hwritten.symm)
    exact Layout.ext hwords hfinal
  case stored => exact fun w _ => w.lexeme.writtenAs
  case numbers =>
    intro before w after hwords hnumber
    rw [hwords] at htaken
    exact htaken.taken.longest hnumber
  case widened =>
    intro l' hwidens
    have hscans := Word.scans_write l'.areBlank htaken hwidens.words (byteLength l'.written)
    rw [tokenize, String.toList_ofList]
    exact hscans _ le_rfl

/-- An expression that is no comparison, with no white space between its lexemes. -/
def tight : String := "1.e5-2.5E-3.a$CURRENT_USER..x<=\"b c\"=="

/-- Its tokens. -/
def tightTokens : List Token :=
  [.int "1", .dot, .ident "e5", .float "-2.5E-3", .dot, .ident "a", .var "$CURRENT_USER", .dot,
    .dot, .ident "x", .op .ltEq, .str "b c", .op .eq]

theorem tokenize_lossless_tight :
    tokenize tight = .ok tightTokens ∧ ∃ l, Lossless tight tightTokens l := by
  have h : tokenize tight = .ok tightTokens := by decide +kernel
  exact ⟨h, tokenize_lossless h⟩

end ItemClient.Filter
