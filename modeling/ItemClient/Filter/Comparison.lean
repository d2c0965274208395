import ItemClient.Filter.Lexer

/-!
# Comparisons

A comparison is a dotted path, an operator and a value. `Comparison.parse` reads one from an
expression; the expression is split into tokens first, so a character that begins no token is
reported before anything that is wrong with the order of the tokens.
-/

namespace ItemClient.Filter

/-- One comparison of a field with a value. -/
structure Comparison where
  path : List String
  op : CompareOp
  value : Json

/-! ## Values -/

/-- Whether a character delimits strings. -/
def isQuote (c : Char) : Bool := c == '"' || c == '\''

/-- The value of a string: its body without any quote, whichever delimits it. -/
def stringValue (body : String) : Json :=
  .string (String.ofList (body.toList.filter fun c => !isQuote c))

/-- The integer a number spells. -/
def intValue (text : List Char) : Int :=
  match text with
  | '-' :: digits => -(Text.decimalValue digits : Int)
  | digits => Text.decimalValue digits

/-- The value of a number without fraction and exponent: a signed integer of 64 bits. -/
def integerValue? (text : String) : Option Json :=
  let n := intValue text.toList
  if -0x8000000000000000 ≤ n ∧ n < 0x8000000000000000 then some (.ofInt n) else none

/-- The double nearest to a number with a fraction, an exponent or both. -/
def nearestDouble (text : List Char) : Binary64 :=
  let (minus, rest) := takeMinus text
  let whole := rest.takeWhile Char.isDigit
  let (fraction, rest) := takeFraction (rest.dropWhile Char.isDigit)
  let fraction := fraction.drop 1
  let (sign, digits) := takeSign (rest.drop 1)
  let exponent : Int := Text.decimalValue digits
  let exponent := if sign = ['-'] then -exponent else exponent
  Binary64.ofDecimal (minus ≠ []) (Text.decimalValue (whole ++ fraction))
    (exponent - fraction.length)

/-- The value of such a number, when the nearest double is finite. -/
def floatValue? (text : String) : Option Json :=
  (Json.Number.ofFloat? (nearestDouble text.toList)).map .number

/-! ## Reading a comparison -/

/-- A path: names with dots between them, and what follows. -/
def takePath : List Token → Except Fault (List String × List Token)
  | .ident name :: .dot :: rest => do
      let (path, rest) ← takePath rest
      return (name :: path, rest)
  | .ident name :: rest => .ok ([name], rest)
  | t :: _ => .error (.expectedField (some t))
  | [] => .error (.expectedField none)

def takeOperator : List Token → Except Fault (CompareOp × List Token)
  | .op o :: rest => .ok (o, rest)
  | t :: _ => .error (.expectedOperator (some t))
  | [] => .error (.expectedOperator none)

def literal : Token → Except Fault Json
  | .str body => .ok (stringValue body)
  | .int text =>
      match integerValue? text with
      | some value => .ok value
      | none => .error (.integerOutOfRange text)
  | .float text =>
      match floatValue? text with
      | some value => .ok value
      | none => .error (.invalidFloat text)
  | .var text => .ok (.string text)
  | t => .error (.expectedLiteral (some t))

def takeLiteral : List Token → Except Fault (Json × List Token)
  | t :: rest => (literal t).map fun value => (value, rest)
  | [] => .error (.expectedLiteral none)

namespace Comparison

/-- The comparison that a list of tokens spells. -/
def ofTokens (ts : List Token) : Except Fault Comparison := do
  let (path, ts) ← takePath ts
  let (op, ts) ← takeOperator ts
  let (value, ts) ← takeLiteral ts
  match ts with
  | [] => return { path, op, value }
  | t :: _ => throw (.trailing t)

/-- The comparison that an expression spells, or what is wrong with it. -/
def read (expression : String) : Except Fault Comparison := do
  ofTokens (← tokenize expression)

def parse (expression : String) : Result Comparison :=
  match read expression with
  | .ok c => .ok c
  | .error fault => .error (.compile expression fault.reason)

end Comparison

end ItemClient.Filter
