import ItemClient.Proofs.Filter.Scanning
import ItemClient.Proofs.Number.Conversion

/-!
# The language of comparisons

`Comparison.parse` reads the expressions of the grammar, each with its meaning, and no others.

The tokens of an expression are known from scanning. What is left is that names, dots, an operator
and a value follow each other as the grammar has it, that each value is what its lexeme means, and
that no lexeme of an expression is taken for more than it is: an operator never stands before an
equals sign, and the literal is the last.
-/

namespace ItemClient.Filter

open Text Grammar

variable {n : Nat} {cs text rest : List Char} {names : List String} {op : CompareOp} {value : Json}
  {t : Token} {ts ts' : List Token}

/-! ## Values -/

theorem stringValue_ofList (body : List Char) :
    stringValue (String.ofList body) =
      .string (String.ofList (body.filter fun c => c ≠ '"' ∧ c ≠ '\'')) := by
  have hfilter : (body.filter fun c => !isQuote c) = body.filter fun c => c ≠ '"' ∧ c ≠ '\'' :=
    List.filter_congr fun c _ => by simp [isQuote, beq_eq_decide]
  rw [stringValue, String.toList_ofList, hfilter]

theorem intValue_of_integer {i : Int} (h : Integer text i) : intValue text = i := by
  cases h with
  | mk hminus hdigits =>
    cases hminus with
    | present => rfl
    | absent =>
      obtain ⟨d, tail, rfl, hd⟩ := hdigits.exists_cons
      have hne : d ≠ '-' := ne_of_class hd (by decide)
      rw [List.nil_append, intValue]
      · rfl
      · rintro digits heq
        cases heq
        exact hne rfl

theorem integerValue?_ofList {i : Int} (h : Integer text i) :
    integerValue? (String.ofList text) =
      if -2 ^ 63 ≤ i ∧ i < 2 ^ 63 then some (.ofInt i) else none := by
  rw [integerValue?, String.toList_ofList, intValue_of_integer h]
  rfl

/-- The power of ten that an exponent stands for, as it is read off its characters. -/
theorem exponentValue {exponent : List Char} {i : Int} (h : Exponent exponent i) :
    (if (takeSign (exponent.drop 1)).1 = ['-'] then
      -(decimalValue (takeSign (exponent.drop 1)).2 : Int)
    else decimalValue (takeSign (exponent.drop 1)).2) = i := by
  cases h with
  | absent => rfl
  | @present e sign ds negative he hsign hds =>
    have htake : takeSign (sign ++ ds) = (sign, ds) := by
      simpa using takeSign_append hsign (hds.stops (by decide) [])
    rw [List.cons_append, List.drop_succ_cons, List.drop_zero, htake]
    cases hsign <;> rfl

theorem nearestDouble_eq_iff {negative : Bool} {q : ℚ} {x : Binary64}
    (h : Floating text negative q) :
    nearestDouble text = x ∧ x.isFinite = true ↔ Binary64.Rounds negative q x := by
  cases h with
  | @mk minus whole fraction exponent ds negative i hminus hwhole hfraction hexponent hsome =>
    have hdigit : Stops Char.isDigit exponent := by
      simpa using hexponent.stops rfl rfl fun _ => stops_nil
    have hpoint : Stops (· == '.') exponent := by
      simpa using hexponent.stops rfl rfl fun _ => stops_nil
    have hfractionTail : Stops Char.isDigit (fraction ++ exponent) := hfraction.stops rfl fun _ => hdigit
    have hsign : (decide (minus ≠ [])) = negative := by cases hminus <;> rfl
    have hds : fraction.drop 1 = ds := by cases hfraction <;> rfl
    rw [← Binary64.ofDecimal_eq_iff]
    simp only [List.append_assoc, nearestDouble, takeMinus_append hminus (hwhole.stops (by decide) _),
      takeWhile_append hwhole.digits hfractionTail, dropWhile_append hwhole.digits hfractionTail,
      takeFraction_append hfraction hdigit hpoint, exponentValue hexponent, hsign, hds]

theorem floatValue?_ofList {negative : Bool} {q : ℚ} (h : Floating text negative q) :
    floatValue? (String.ofList text) = some value ↔
      ∃ (x : Binary64) (hx : Binary64.Rounds negative q x),
        value = .number (.float x hx.finite) := by
  rw [floatValue?, String.toList_ofList, Json.Number.ofFloat?]
  constructor
  · intro hvalue
    split_ifs at hvalue with hfinite
    · cases hvalue
      exact ⟨_, (nearestDouble_eq_iff h).1 ⟨rfl, hfinite⟩, rfl⟩
    · cases hvalue
  · rintro ⟨x, hx, rfl⟩
    obtain ⟨rfl, hfinite⟩ := (nearestDouble_eq_iff h).2 hx
    rw [dif_pos hfinite]
    rfl

/-- The value of a literal token is what its lexeme means. -/
theorem literal_of_lexeme (h : Lexeme text t) (hvalue : literal t = .ok value) :
    Literal text value := by
  cases h with
  | ident => cases hvalue
  | dot => cases hvalue
  | op => cases hvalue
  | str hdelimiter hbody =>
    cases hvalue
    rw [stringValue_ofList]
    exact .string hdelimiter hbody
  | int hinteger =>
    rw [literal, integerValue?_ofList hinteger] at hvalue
    split_ifs at hvalue with hrange
    cases hvalue
    exact .integer hinteger hrange
  | float hfloating =>
    rw [literal] at hvalue
    split at hvalue
    · rename_i value' hsome
      cases hvalue
      obtain ⟨x, hx, rfl⟩ := (floatValue?_ofList hfloating).1 hsome
      exact .floating hx hfloating
    · cases hvalue
  | var hplaceholder =>
    cases hvalue
    exact .placeholder hplaceholder

/-- A literal is one lexeme, whose token has the value of the literal. -/
theorem Grammar.Literal.exists_token (h : Literal text value) :
    ∃ t, Lexeme text t ∧ literal t = .ok value := by
  cases h with
  | string hdelimiter hbody =>
    refine ⟨_, .str hdelimiter hbody, ?_⟩
    rw [literal, stringValue_ofList]
  | integer hinteger hrange =>
    refine ⟨_, .int hinteger, ?_⟩
    rw [literal, integerValue?_ofList hinteger, if_pos hrange]
  | floating hx hfloating =>
    refine ⟨_, .float hfloating, ?_⟩
    rw [literal, (floatValue?_ofList hfloating).2 ⟨_, hx, rfl⟩]
  | placeholder hplaceholder => exact ⟨_, .var hplaceholder, rfl⟩

/-! ## Soundness -/

theorem Spelled.uncons (h : Spelled cs (t :: ts)) :
    ∃ blanks text rest, cs = blanks ++ text ++ rest ∧ Blanks blanks ∧ Lexeme text t ∧
      Spelled rest ts := by
  cases h with
  | cons hblanks hlexeme hrest => exact ⟨_, _, _, rfl, hblanks, hlexeme, hrest⟩

theorem path_of_takePath (h : takePath ts = .ok (names, ts')) (hcs : Spelled cs ts) :
    ∃ blanks path rest, cs = blanks ++ path ++ rest ∧ Blanks blanks ∧ Path path names ∧
      Spelled rest ts' := by
  induction ts using takePath.induct generalizing cs names with
  | case1 name ts ih =>
    rw [takePath] at h
    obtain ⟨⟨names', ts''⟩, hpath, hnames⟩ := Result.bind_eq_ok.1 h
    cases hnames
    obtain ⟨blanks, text, cs₁, rfl, hblanks, hname, hcs₁⟩ := hcs.uncons
    obtain ⟨before, dot, cs₂, rfl, hbefore, hdot, hcs₂⟩ := hcs₁.uncons
    obtain ⟨after, path, rest, rfl, hafter, hpath, hrest⟩ := ih hpath hcs₂
    cases hname with
    | ident hname =>
      cases hdot
      exact ⟨blanks, _, rest, by simp, hblanks, .dot hname hbefore hafter hpath, hrest⟩
  | case2 name ts hdot =>
    rw [takePath] at h
    · cases h
      obtain ⟨blanks, text, rest, rfl, hblanks, hname, hrest⟩ := hcs.uncons
      cases hname with
      | ident hname => exact ⟨blanks, text, rest, rfl, hblanks, .last hname, hrest⟩
    · exact hdot
  | case3 t ts hdot hident =>
    rw [takePath] at h
    · cases h
    · exact hdot
    · exact hident
  | case4 => cases h

theorem operator_of_takeOperator (h : takeOperator ts = .ok (op, ts')) (hcs : Spelled cs ts) :
    ∃ blanks rest, cs = blanks ++ op.symbol.toList ++ rest ∧ Blanks blanks ∧ Spelled rest ts' := by
  unfold takeOperator at h
  split at h <;> cases h
  obtain ⟨blanks, text, rest, rfl, hblanks, hop, hrest⟩ := hcs.uncons
  cases hop
  exact ⟨blanks, rest, rfl, hblanks, hrest⟩

theorem literal_of_takeLiteral (h : takeLiteral ts = .ok (value, ts')) (hcs : Spelled cs ts) :
    ∃ blanks text rest, cs = blanks ++ text ++ rest ∧ Blanks blanks ∧ Literal text value ∧
      Spelled rest ts' := by
  cases ts with
  | nil => cases h
  | cons t ts =>
    obtain ⟨value', hvalue, heq⟩ := Result.map_eq_ok.1 h
    cases heq
    obtain ⟨blanks, text, rest, rfl, hblanks, hlexeme, hrest⟩ := hcs.uncons
    exact ⟨blanks, text, rest, rfl, hblanks, literal_of_lexeme hlexeme hvalue, hrest⟩

/-- **Soundness.** A text whose tokens are a comparison is an expression that means it. -/
theorem expression_of_ofTokens {c : Comparison} (h : Comparison.ofTokens ts = .ok c)
    (hcs : Spelled cs ts) : Expression cs c := by
  obtain ⟨⟨names, ts₁⟩, hpath, h⟩ := Result.bind_eq_ok.1 h
  obtain ⟨⟨op, ts₂⟩, hop, h⟩ := Result.bind_eq_ok.1 h
  obtain ⟨⟨value, ts₃⟩, hvalue, h⟩ := Result.bind_eq_ok.1 h
  obtain ⟨blanks₀, path, cs₁, rfl, hblanks₀, hpath, hcs₁⟩ := path_of_takePath hpath hcs
  obtain ⟨blanks₁, cs₂, rfl, hblanks₁, hcs₂⟩ := operator_of_takeOperator hop hcs₁
  obtain ⟨blanks₂, text, cs₃, rfl, hblanks₂, hliteral, hcs₃⟩ := literal_of_takeLiteral hvalue hcs₂
  cases ts₃ with
  | cons t ts => cases h
  | nil =>
    cases h
    cases hcs₃ with
    | nil hblanks₃ =>
      have hexpression : Expression
          (blanks₀ ++ path ++ blanks₁ ++ op.symbol.toList ++ blanks₂ ++ text ++ cs₃)
          { path := names, op, value } :=
        .mk hblanks₀ hpath hblanks₁ hblanks₂ hliteral hblanks₃
      simpa using hexpression

/-! ## Completeness -/

theorem Grammar.Blanks.stops {p : Char → Bool} {blanks : List Char} (h : Blanks blanks)
    (hp : ∀ n ∈ blankPoints, p (Char.ofNat n) = false) (hrest : Stops p rest) :
    Stops p (blanks ++ rest) := by
  cases blanks with
  | nil => exact hrest
  | cons b blanks => exact stops_cons.2 (of_mem_points hp (mem_blankPoints (h b List.mem_cons_self)))

/-- A literal begins with no equals sign. -/
theorem Grammar.Literal.stops (h : Literal text value) (rest : List Char) :
    Stops (· == '=') (text ++ rest) := by
  cases h with
  | string hdelimiter hbody =>
    refine stops_cons.2 ?_
    rcases hdelimiter with rfl | rfl <;> rfl
  | integer hinteger =>
    cases hinteger with
    | mk hminus hdigits =>
      rw [List.append_assoc]
      exact hminus.stops rfl (hdigits.stops (by decide) rest)
  | floating hx hfloating =>
    cases hfloating with
    | mk hminus hwhole =>
      simp only [List.append_assoc]
      exact hminus.stops rfl (hwhole.stops (by decide) _)
  | placeholder hplaceholder =>
    cases hplaceholder
    exact stops_cons.2 rfl

/-- A path is scanned as tokens that are read as its names. -/
theorem exists_path_tokens {path : List Char} (h : Path path names) :
    ∃ us, (∀ op ts, takePath (us ++ .op op :: ts) = .ok (names, .op op :: ts)) ∧
      ∀ {n rest ts}, Stops isIdentPart rest → Scans n rest ts → Scans n (path ++ rest) (us ++ ts) := by
  induction h with
  | @last name hname =>
    exact ⟨[.ident (String.ofList name)], fun op ts => rfl,
      fun hstops hscans => .lexeme (.ident hname) hstops hscans⟩
  | @dot name before after path names hname hbefore hafter hpath ih =>
    obtain ⟨us, htake, hscan⟩ := ih
    refine ⟨.ident (String.ofList name) :: .dot :: us, ?_, ?_⟩
    · intro op ts
      simp only [List.cons_append, takePath, htake]
      rfl
    · intro n rest ts hstops hscans
      have hafterDot : Scans n ('.' :: (after ++ (path ++ rest))) (.dot :: (us ++ ts)) :=
        Scans.lexeme .dot trivial ((hscan hstops hscans).blanks hafter)
      have hbeforeDot := hafterDot.blanks hbefore
      have hapart : Stops isIdentPart (before ++ '.' :: (after ++ (path ++ rest))) :=
        hbefore.stops isIdentPart_blankPoints (stops_cons.2 (by decide))
      simpa using Scans.lexeme (.ident hname) hapart hbeforeDot

/-- An operator begins with no character of a name. -/
theorem stops_symbol (op : CompareOp) (rest : List Char) :
    Stops isIdentPart (op.symbol.toList ++ rest) := by
  cases op <;> exact stops_cons.2 (by decide)

/-- **Completeness.** An expression is split into tokens that are the comparison it means. -/
theorem scans_of_expression {c : Comparison} (h : Expression cs c) (n : Nat) :
    ∃ ts, Scans n cs ts ∧ Comparison.ofTokens ts = .ok c := by
  cases h with
  | @mk blanks₀ path blanks₁ blanks₂ text blanks₃ names op value hblanks₀ hpath hblanks₁ hblanks₂
      hliteral hblanks₃ =>
    obtain ⟨us, htakePath, hscanPath⟩ := exists_path_tokens hpath
    obtain ⟨t, hlexeme, hvalue⟩ := hliteral.exists_token
    refine ⟨us ++ [.op op, t], ?_, ?_⟩
    · have hend : Scans n blanks₃ [] := by simpa using (scans_nil n).blanks hblanks₃
      have htext : Scans n (text ++ blanks₃) [t] := .lexeme hlexeme (hblanks₃.breaks.apart t) hend
      have hop : Scans n (op.symbol.toList ++ (blanks₂ ++ (text ++ blanks₃))) [.op op, t] :=
        .lexeme (.op op) (hblanks₂.stops (by decide) (hliteral.stops blanks₃))
          (htext.blanks hblanks₂)
      have hstops := hblanks₁.stops isIdentPart_blankPoints
        (stops_symbol op (blanks₂ ++ (text ++ blanks₃)))
      have hall := (hscanPath hstops (hop.blanks hblanks₁)).blanks hblanks₀
      simpa using hall
    · have hlast : takeLiteral [t] = .ok (value, []) := by
        rw [takeLiteral, hvalue]
        rfl
      have hop : takeOperator [.op op, t] = .ok (op, [t]) := rfl
      exact Result.bind_eq_ok.2 ⟨_, htakePath op [t],
        Result.bind_eq_ok.2 ⟨_, hop, Result.bind_eq_ok.2 ⟨_, hlast, rfl⟩⟩⟩

/-! ## The language -/

theorem Comparison.read_eq_ok_iff {e : String} {c : Comparison} :
    Comparison.read e = .ok c ↔ Expression e.toList c := by
  constructor
  · intro h
    obtain ⟨ts, hts, hc⟩ := Result.bind_eq_ok.1 h
    exact expression_of_ofTokens hc (spelled_of_tokens le_rfl hts)
  · intro h
    obtain ⟨ts, hscans, hc⟩ := scans_of_expression h (byteLength e.toList)
    exact Result.bind_eq_ok.2 ⟨ts, hscans _ le_rfl, hc⟩

/-- **The language of comparisons.** An expression is read exactly when the grammar has it, and
then as the comparison that the grammar says it means. -/
theorem Comparison.parse_eq_ok_iff (e : String) (c : Comparison) :
    Comparison.parse e = .ok c ↔ Expression e.toList c := by
  rw [← Comparison.read_eq_ok_iff, Comparison.parse]
  split
  · rename_i c' hread
    rw [hread, Except.ok.injEq, Except.ok.injEq]
  · rename_i fault hread
    rw [hread]
    simp

end ItemClient.Filter
