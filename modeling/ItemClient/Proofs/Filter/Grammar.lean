import ItemClient.Filter.Comparison
import ItemClient.Proofs.Number.Rounding

/-!
# The grammar of comparisons

What an expression may be, character by character, and what it means.

    comparison   blanks path blanks op blanks literal blanks
    path         name (blanks '.' blanks name)*
    op           == != < <= > >=
    literal      string, integer, floating or variable
    string       a body between two quotes of one kind
    integer      -? digits
    floating     -? digits fraction? exponent?, with at least one of the two
    variable     '$' known name ('.' name)* adjustment?

Blanks are any number of white space characters; there are none inside a literal other than in a
string and in the parentheses of an adjustment. The fields of a variable are for the user and the
role only. An integer has 64 bits, and a floating number means the finite double nearest to it; what
has none is no literal. Nothing here says how an expression is read.
-/

namespace ItemClient.Filter.Grammar

open Text

/-! ## Paths -/

/-- White space. -/
def Blanks (cs : List Char) : Prop := ∀ c ∈ cs, isBlank c = true

/-- A field name. -/
inductive Name : List Char → Prop
  | mk {c : Char} {cs : List Char} :
      isIdentStart c = true → (∀ x ∈ cs, isIdentPart x = true) → Name (c :: cs)

/-- Names with dots between them. -/
inductive Path : List Char → List String → Prop
  | last {name : List Char} : Name name → Path name [String.ofList name]
  | dot {name before after rest : List Char} {names : List String} :
      Name name → Blanks before → Blanks after → Path rest names →
      Path (name ++ before ++ '.' :: after ++ rest) (String.ofList name :: names)

/-! ## Numbers -/

/-- ASCII digits, at least one. -/
structure Digits (ds : List Char) : Prop where
  ne_nil : ds ≠ []
  digits : ∀ d ∈ ds, d.isDigit = true

/-- A minus sign, if the number is negative. -/
inductive Minus : List Char → Bool → Prop
  | absent : Minus [] false
  | present : Minus ['-'] true

/-- An integer and its value. -/
inductive Integer : List Char → Int → Prop
  | mk {minus ds : List Char} {negative : Bool} : Minus minus negative → Digits ds →
      Integer (minus ++ ds) (if negative then -(decimalValue ds : Int) else decimalValue ds)

/-- A point with digits after it, or nothing. -/
inductive Fraction : List Char → List Char → Prop
  | absent : Fraction [] []
  | present {ds : List Char} : Digits ds → Fraction ('.' :: ds) ds

/-- The sign of an exponent. -/
inductive Sign : List Char → Bool → Prop
  | absent : Sign [] false
  | plus : Sign ['+'] false
  | minus : Sign ['-'] true

/-- A power of ten, or nothing. -/
inductive Exponent : List Char → Int → Prop
  | absent : Exponent [] 0
  | present {e : Char} {sign ds : List Char} {negative : Bool} :
      e = 'e' ∨ e = 'E' → Sign sign negative → Digits ds →
      Exponent (e :: sign ++ ds) (if negative then -(decimalValue ds : Int) else decimalValue ds)

/-- A number with a fraction or an exponent: its sign and its exact magnitude. -/
inductive Floating : List Char → Bool → ℚ → Prop
  | mk {minus whole fraction exponent ds : List Char} {negative : Bool} {n : Int} :
      Minus minus negative → Digits whole → Fraction fraction ds → Exponent exponent n →
      fraction ≠ [] ∨ exponent ≠ [] →
      Floating (minus ++ whole ++ fraction ++ exponent) negative
        (decimalValue (whole ++ ds) * 10 ^ (n - ds.length))

/-! ## Strings and variables -/

/-- What may stand between two delimiters. A backslash takes the next character with it. -/
inductive Body (delimiter : Char) : List Char → Prop
  | nil : Body delimiter []
  | escaped {c : Char} {rest : List Char} : Body delimiter rest → Body delimiter ('\\' :: c :: rest)
  | plain {c : Char} {rest : List Char} :
      c ≠ '\\' → c ≠ delimiter → Body delimiter rest → Body delimiter (c :: rest)

/-- Names with a dot before each. -/
inductive Fields : List Char → Prop
  | nil : Fields []
  | cons {name rest : List Char} : Name name → Fields rest → Fields ('.' :: name ++ rest)

/-- Anything in parentheses up to the first that closes, or nothing. -/
inductive Adjustment : List Char → Prop
  | absent : Adjustment []
  | present {inner : List Char} : (∀ c ∈ inner, c ≠ ')') → Adjustment ('(' :: inner ++ [')'])

/-- A variable. -/
inductive Placeholder : List Char → Prop
  | mk {v : Variable} {fields adjustment : List Char} :
      Fields fields → (v.hasFields = false → fields = []) → Adjustment adjustment →
      Placeholder ('$' :: v.name.toList ++ fields ++ adjustment)

/-! ## Comparisons -/

/-- A literal and its value. -/
inductive Literal : List Char → Json → Prop
  | string {delimiter : Char} {body : List Char} : delimiter = '"' ∨ delimiter = '\'' →
      Body delimiter body →
      Literal (delimiter :: body ++ [delimiter])
        (.string (String.ofList (body.filter fun c => c ≠ '"' ∧ c ≠ '\'')))
  | integer {text : List Char} {n : Int} :
      Integer text n → -2 ^ 63 ≤ n ∧ n < 2 ^ 63 → Literal text (.ofInt n)
  | floating {text : List Char} {negative : Bool} {q : ℚ} {x : Binary64}
      (hx : Binary64.Rounds negative q x) :
      Floating text negative q → Literal text (.number (.float x hx.finite))
  | placeholder {text : List Char} :
      Placeholder text → Literal text (.string (String.ofList text))

/-- An expression and the comparison that it means. -/
inductive Expression : List Char → Comparison → Prop
  | mk {blanks₀ path blanks₁ blanks₂ literal blanks₃ : List Char} {names : List String}
      {op : CompareOp} {value : Json} :
      Blanks blanks₀ → Path path names → Blanks blanks₁ → Blanks blanks₂ →
      Literal literal value → Blanks blanks₃ →
      Expression
        (blanks₀ ++ path ++ blanks₁ ++ op.symbol.toList ++ blanks₂ ++ literal ++ blanks₃)
        { path := names, op, value }

end ItemClient.Filter.Grammar
