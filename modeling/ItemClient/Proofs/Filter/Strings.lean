import ItemClient.Proofs.Filter.Language

/-!
# What string literals can say

A string may hold its own delimiter after a backslash, and then no quote of it is part of the
value, nor is the one after the backslash. So the value of a string is its body less all quotes
(`Grammar.Unquoted`): no string means a text with a quote in it. The backslashes stay.

Every other text is the value of some string, whichever delimiter is wanted. A backslash in it would
take the character after it along, which may be the closing delimiter. It is given a delimiter of
its own to take instead, and that is dropped from the value (`spelling`).

Main result: `Comparison.parse_strings`.
-/

namespace ItemClient.Filter

open Grammar

variable {delimiter : Char} {cs head body text blanks : List Char} {names : List String}
  {op : CompareOp} {value : Json}

namespace Grammar

/-- A path and an operator, with white space around them: what stands before a literal. -/
inductive Head : List Char → List String → CompareOp → Prop
  | mk {blanks₀ path blanks₁ blanks₂ : List Char} {names : List String} {op : CompareOp} :
      Blanks blanks₀ → Path path names → Blanks blanks₁ → Blanks blanks₂ →
      Head (blanks₀ ++ path ++ blanks₁ ++ op.symbol.toList ++ blanks₂) names op

/-- An expression has a literal between what stands before it and white space. -/
theorem expression_iff {c : Comparison} : Expression cs c ↔
    ∃ head text blanks, cs = head ++ text ++ blanks ∧ Head head c.path c.op ∧
      Literal text c.value ∧ Blanks blanks := by
  constructor
  · rintro ⟨hblanks₀, hpath, hblanks₁, hblanks₂, hliteral, hblanks₃⟩
    exact ⟨_, _, _, rfl, .mk hblanks₀ hpath hblanks₁ hblanks₂, hliteral, hblanks₃⟩
  · rintro ⟨head, text, blanks, rfl, hhead, hliteral, hblanks⟩
    obtain ⟨path, op, value⟩ := c
    cases hhead with
    | mk hblanks₀ hpath hblanks₁ hblanks₂ =>
      exact .mk hblanks₀ hpath hblanks₁ hblanks₂ hliteral hblanks

/-- A text is what is left of a body without its quotes. -/
structure Unquoted (body : List Char) (s : String) : Prop where
  free : ∀ c ∈ s.toList, isQuote c = false
  order : s.toList.Sublist body
  /-- All else is kept, backslashes too. -/
  kept : ∀ c, isQuote c = false → s.toList.count c = body.count c

/-- Only a string begins with a delimiter. -/
theorem Literal.string_or (h : Literal text value) :
    (∃ delimiter body, text = delimiter :: body ++ [delimiter] ∧ isQuote delimiter = true ∧
      Body delimiter body) ∨ ∃ c rest, text = c :: rest ∧ isQuote c = false := by
  have hnumber : ∀ {minus whole : List Char} {negative : Bool} (rest : List Char),
      Minus minus negative → Digits whole →
      ∃ c tail, minus ++ whole ++ rest = c :: tail ∧ isQuote c = false := by
    intro minus whole negative rest hminus hwhole
    obtain ⟨d, tail, rfl, hd⟩ := hwhole.exists_cons
    cases hminus with
    | present => exact ⟨'-', d :: tail ++ rest, rfl, rfl⟩
    | absent =>
      refine ⟨d, tail ++ rest, rfl, ?_⟩
      have hdouble : d ≠ '"' := ne_of_class hd rfl
      have hsingle : d ≠ '\'' := ne_of_class hd rfl
      simp [isQuote, hdouble, hsingle]
  cases h with
  | @string delimiter body hdelimiter hbody =>
    refine .inl ⟨delimiter, body, rfl, ?_, hbody⟩
    rcases hdelimiter with rfl | rfl <;> rfl
  | integer hinteger =>
    cases hinteger with
    | mk hminus hdigits => exact .inr (by simpa using hnumber [] hminus hdigits)
  | floating hx hfloating =>
    cases hfloating with
    | @mk _ _ fraction exponent _ _ _ hminus hwhole =>
      exact .inr (by simpa using hnumber (fraction ++ exponent) hminus hwhole)
  | placeholder hplaceholder =>
    cases hplaceholder with
    | mk hfields hnone hadjustment => exact .inr ⟨'$', _, rfl, rfl⟩

end Grammar

theorem isQuote_iff {c : Char} : isQuote c = true ↔ c = '"' ∨ c = '\'' := by
  simp [isQuote]

/-! ## The value of a string -/

/-- A body without its quotes. -/
def unquote (body : List Char) : List Char := body.filter fun c => !isQuote c

theorem unquote_append (body rest : List Char) :
    unquote (body ++ rest) = unquote body ++ unquote rest :=
  List.filter_append ..

theorem unquoted_unquote (body : List Char) : Unquoted body (String.ofList (unquote body)) where
  free c hc := by
    rw [String.toList_ofList, unquote, List.mem_filter] at hc
    simpa using hc.2
  order := by
    rw [String.toList_ofList]
    exact List.filter_sublist
  kept c hc := by
    rw [String.toList_ofList]
    exact List.count_filter (by simp [hc])

/-- **What a string on the right means.** -/
theorem Comparison.parse_string (hhead : Head head names op) (hdelimiter : isQuote delimiter = true)
    (hbody : Body delimiter body) (hblanks : Blanks blanks) :
    Comparison.parse (String.ofList (head ++ (delimiter :: body ++ [delimiter]) ++ blanks)) =
      .ok { path := names, op, value := .string (String.ofList (unquote body)) } := by
  have hliteral : Literal (delimiter :: body ++ [delimiter])
      (.string (String.ofList (unquote body))) := by
    have hstring := Literal.string (isQuote_iff.1 hdelimiter) hbody
    rwa [← stringValue_ofList, stringValue, String.toList_ofList] at hstring
  apply (Comparison.parse_eq_ok_iff _ _).2
  rw [String.toList_ofList]
  exact expression_iff.2 ⟨_, _, _, rfl, hhead, hliteral, hblanks⟩

/-! ## A string for a text -/

/-- A text as the body of a string: behind each backslash stands a delimiter for it to take. -/
def spelling (delimiter : Char) (cs : List Char) : List Char :=
  cs.flatMap fun c => if c = '\\' then ['\\', delimiter] else [c]

theorem spelling_cons (delimiter c : Char) (cs : List Char) :
    spelling delimiter (c :: cs) =
      (if c = '\\' then ['\\', delimiter] else [c]) ++ spelling delimiter cs :=
  List.flatMap_cons

theorem body_spelling (hdelimiter : isQuote delimiter = true) (h : ∀ c ∈ cs, isQuote c = false) :
    Body delimiter (spelling delimiter cs) := by
  induction cs with
  | nil => exact .nil
  | cons c cs ih =>
    have hrest := ih fun d hd => h d (List.mem_cons_of_mem _ hd)
    rw [spelling_cons]
    split_ifs with hslash
    · exact .escaped hrest
    · have hne : c ≠ delimiter := by
        rintro rfl
        rw [h c List.mem_cons_self] at hdelimiter
        cases hdelimiter
      exact .plain hslash hne hrest

theorem unquote_spelling (hdelimiter : isQuote delimiter = true) (h : ∀ c ∈ cs, isQuote c = false) :
    unquote (spelling delimiter cs) = cs := by
  induction cs with
  | nil => rfl
  | cons c cs ih =>
    have hrest := ih fun d hd => h d (List.mem_cons_of_mem _ hd)
    have hc : isQuote c = false := h c List.mem_cons_self
    rw [spelling_cons, unquote_append, hrest]
    split_ifs with hslash
    · have htaken : unquote ['\\', delimiter] = ['\\'] := by
        rw [unquote, List.filter_cons_of_pos rfl, List.filter_singleton, hdelimiter]
        rfl
      rw [htaken, hslash, List.singleton_append]
    · have hkept : unquote [c] = [c] := by simp [unquote, hc]
      rw [hkept, List.singleton_append]

/-! ## All strings -/

/-- **What string literals can say.** Whatever is read has a string on its right, or a literal that
does not begin with a delimiter. The value of a string has no quote in it, and of all other
characters, backslashes included, what the string has. And every text without quotes is the value of
a string with each of the delimiters, wherever that stands. -/
theorem Comparison.parse_strings :
    (∀ (e : String) (c : Comparison), Comparison.parse e = .ok c →
      ∃ head text blanks, e.toList = head ++ text ++ blanks ∧ Head head c.path c.op ∧
        Blanks blanks ∧
        ((∃ delimiter body, text = delimiter :: body ++ [delimiter] ∧ isQuote delimiter = true ∧
          Body delimiter body) ∨ ∃ first rest, text = first :: rest ∧ isQuote first = false)) ∧
    (∀ (head : List Char) (names : List String) (op : CompareOp) (delimiter : Char)
      (body blanks : List Char), Head head names op → isQuote delimiter = true →
      Body delimiter body → Blanks blanks →
      ∃ s : String, Comparison.parse
          (String.ofList (head ++ (delimiter :: body ++ [delimiter]) ++ blanks)) =
            .ok { path := names, op, value := .string s } ∧
        Unquoted body s) ∧
    ∀ (s : String) (delimiter : Char), (∀ c ∈ s.toList, isQuote c = false) →
      isQuote delimiter = true →
      ∃ body, Body delimiter body ∧
        ∀ (head : List Char) (names : List String) (op : CompareOp) (blanks : List Char),
          Head head names op → Blanks blanks →
          Comparison.parse (String.ofList (head ++ (delimiter :: body ++ [delimiter]) ++ blanks)) =
            .ok { path := names, op, value := .string s } := by
  refine ⟨fun e c hparse => ?_, fun head names op delimiter body blanks hhead hdelimiter hbody
    hblanks => ?_, fun s delimiter hs hdelimiter => ?_⟩
  · obtain ⟨head, text, blanks, heq, hhead, hliteral, hblanks⟩ :=
      expression_iff.1 ((Comparison.parse_eq_ok_iff e c).1 hparse)
    exact ⟨head, text, blanks, heq, hhead, hblanks, hliteral.string_or⟩
  · exact ⟨_, Comparison.parse_string hhead hdelimiter hbody hblanks, unquoted_unquote body⟩
  · have hbody := body_spelling hdelimiter hs
    refine ⟨_, hbody, fun head names op blanks hhead hblanks => ?_⟩
    rw [Comparison.parse_string hhead hdelimiter hbody hblanks, unquote_spelling hdelimiter hs,
      String.ofList_toList]

/-- A text that ends in a backslash, which by itself would escape the delimiter that closes the
string. -/
theorem Comparison.parse_strings_backslash :
    ∃ body, Body '\'' body ∧ Unquoted body "C:\\" ∧
      Comparison.parse (String.ofList ("path == ".toList ++ ('\'' :: body ++ ['\'']) ++ [])) =
        .ok { path := ["path"], op := .eq, value := .string "C:\\" } ∧
      ∃ head text blanks, "path == ".toList ++ ('\'' :: body ++ ['\'']) ++ [] =
        head ++ text ++ blanks ∧ Head head ["path"] .eq := by
  have hblank : Blanks [' '] := fun c hc => by
    rw [List.mem_singleton.1 hc]
    decide
  have hnone : Blanks [] := List.forall_mem_nil _
  have hhead : Head "path == ".toList ["path"] .eq :=
    @Head.mk [] "path".toList [' '] [' '] _ .eq hnone (.last (.mk (by decide) (List.all_eq_true.1 rfl)))
      hblank hblank
  obtain ⟨body, hbody, hspelled⟩ :=
    Comparison.parse_strings.2.2 "C:\\" '\'' (by simp [isQuote]) (by decide)
  have hparse := hspelled _ _ _ [] hhead hnone
  obtain ⟨s, hvalue, hunquoted⟩ :=
    Comparison.parse_strings.2.1 _ _ _ '\'' body [] hhead (by decide) hbody hnone
  obtain ⟨head, text, blanks, hsplit, hfront, -⟩ := Comparison.parse_strings.1 _ _ hparse
  rw [hparse] at hvalue
  cases hvalue
  rw [String.toList_ofList] at hsplit
  exact ⟨body, hbody, hunquoted, hparse, head, text, blanks, hsplit, hfront⟩

/-- The backslash takes the quote after it along, and no delimiter is left to close the string. -/
example : (Comparison.parse "path == 'C:\\'").isOk = false := by decide +kernel

example : (match Comparison.parse "path == 'C:\\''" with
    | .ok ⟨_, _, .string s⟩ => s == "C:\\"
    | _ => false) = true := by
  decide +kernel

end ItemClient.Filter
