import ItemClient.Filter.Token

/-!
# Splitting an expression into tokens

`tokenize` reads an expression from left to right, skipping blanks between tokens. Each kind of
token has a function that splits what it spells off the front of a text: `takeNumber`,
`takeIdent`, `takeDotted`, `takeString`. Of the ways a token could end, the longest is taken.
-/

namespace ItemClient.Filter

open Text

/-- Whether a character may begin a field name. -/
def isIdentStart (c : Char) : Bool := isLetter c || c == '_'

/-- Whether a character may go on a field name. -/
def isIdentPart (c : Char) : Bool := isAlphanumeric c || c == '_'

/-! ## Numbers -/

/-- The minus sign a number may start with. -/
def takeMinus : List Char → List Char × List Char
  | '-' :: rest => (['-'], rest)
  | rest => ([], rest)

/-- The sign an exponent may start with. -/
def takeSign : List Char → List Char × List Char
  | '-' :: rest => (['-'], rest)
  | '+' :: rest => (['+'], rest)
  | rest => ([], rest)

/-- A point and digits, or nothing. -/
def takeFraction : List Char → List Char × List Char
  | '.' :: rest =>
      let digits := rest.takeWhile Char.isDigit
      if digits = [] then ([], '.' :: rest) else ('.' :: digits, rest.dropWhile Char.isDigit)
  | rest => ([], rest)

/-- An `e` of either case, a sign or none, and digits; or nothing. -/
def takeExponent : List Char → List Char × List Char
  | e :: rest =>
      let (sign, tail) := takeSign rest
      let digits := tail.takeWhile Char.isDigit
      if (e = 'e' ∨ e = 'E') ∧ digits ≠ [] then
        (e :: sign ++ digits, tail.dropWhile Char.isDigit)
      else ([], e :: rest)
  | [] => ([], [])

/-- A number: a minus or none, digits, a fraction or none, an exponent or none. -/
def takeNumber (cs : List Char) : Token × List Char :=
  let (minus, rest) := takeMinus cs
  let digits := rest.takeWhile Char.isDigit
  let (fraction, rest) := takeFraction (rest.dropWhile Char.isDigit)
  let (exponent, rest) := takeExponent rest
  let text := String.ofList (minus ++ digits ++ fraction ++ exponent)
  (if fraction = [] ∧ exponent = [] then .int text else .float text, rest)

/-! ## Names and variables -/

/-- The characters that go on a field name. -/
def takeIdent (cs : List Char) : List Char × List Char :=
  (cs.takeWhile isIdentPart, cs.dropWhile isIdentPart)

/-- The characters that go on a dotted path: those of a name, and dots before a name. -/
def takeDotted : List Char → List Char × List Char
  | '.' :: c :: rest =>
      if isIdentStart c then
        let (path, rest) := takeDotted rest
        ('.' :: c :: path, rest)
      else ([], '.' :: c :: rest)
  | c :: rest =>
      if isIdentPart c then
        let (path, rest) := takeDotted rest
        (c :: path, rest)
      else ([], c :: rest)
  | [] => ([], [])

/-- A variable that the remote store replaces by a value. -/
inductive Variable where
  | now
  | currentUser
  | currentRole
  | currentRoles
  | currentPolicies
  deriving DecidableEq

namespace Variable

def all : List Variable := [now, currentUser, currentRole, currentRoles, currentPolicies]

def name : Variable → String
  | now => "NOW"
  | currentUser => "CURRENT_USER"
  | currentRole => "CURRENT_ROLE"
  | currentRoles => "CURRENT_ROLES"
  | currentPolicies => "CURRENT_POLICIES"

/-- Whether a field path may follow: so for the variables that stand for one item. -/
def hasFields : Variable → Bool
  | currentUser | currentRole => true
  | _ => false

def ofName? (name : String) : Option Variable := all.find? (·.name = name)

end Variable

/-- An adjustment in parentheses, or nothing. Fails when it is not closed. -/
def takeAdjustment? : List Char → Option (List Char × List Char)
  | '(' :: rest =>
      match rest.dropWhile (· != ')') with
      | [] => none
      | _ :: tail => some ('(' :: rest.takeWhile (· != ')') ++ [')'], tail)
  | rest => some ([], rest)

/-- A variable after its dollar sign. -/
def takeVariable (cs : List Char) : Except Fault (Token × List Char) :=
  let (name, rest) := takeIdent cs
  match Variable.ofName? (String.ofList name) with
  | none => .error (.unknownVariable (String.ofList name))
  | some v =>
      let (path, rest) := if v.hasFields then takeDotted rest else ([], rest)
      match takeAdjustment? rest with
      | none => .error (.unterminatedAdjustment (String.ofList name))
      | some (adjustment, rest) =>
          .ok (.var (String.ofList ('$' :: name ++ path ++ adjustment)), rest)

/-! ## Strings and comparisons -/

/-- The body of a string up to its delimiter, with what follows the delimiter. A backslash takes
the next character with it. -/
def takeString (delimiter : Char) : List Char → Option (List Char × List Char)
  | [] => none
  | ['\\'] => none
  | '\\' :: c :: rest =>
      (takeString delimiter rest).map fun (body, rest) => ('\\' :: c :: body, rest)
  | c :: rest =>
      if c = delimiter then some ([], rest)
      else (takeString delimiter rest).map fun (body, rest) => (c :: body, rest)

/-- The comparison that a sign begins, `followed` when an equals sign comes next. -/
def compareOp? (sign : Char) (followed : Bool) : Option CompareOp :=
  match sign, followed with
  | '=', true => some .eq
  | '!', true => some .notEq
  | '<', true => some .ltEq
  | '>', true => some .gtEq
  | '<', false => some .lt
  | '>', false => some .gt
  | _, _ => none

/-- A comparison whose first sign has been read. -/
def takeOp (sign : Char) (rest : List Char) : Except Fault (Token × List Char) :=
  let (followed, rest) :=
    match rest with
    | '=' :: tail => (true, tail)
    | rest => (false, rest)
  match compareOp? sign followed with
  | some op => .ok (.op op, rest)
  | none => .error (.unsupportedOperator sign)

/-! ## The token list -/

def startsWithDigit : List Char → Bool
  | c :: _ => c.isDigit
  | [] => false

/-- The token that begins with `c`, which is no blank, and what follows it. `length` is the
length in bytes of the whole expression, from which offsets are counted. -/
def takeToken (length : Nat) (c : Char) (rest : List Char) : Except Fault (Token × List Char) :=
  if c = '.' then .ok (.dot, rest)
  else if c = '=' ∨ c = '!' ∨ c = '<' ∨ c = '>' then takeOp c rest
  else if c = '"' ∨ c = '\'' then
    match takeString c rest with
    | some (body, rest) => .ok (.str (String.ofList body), rest)
    | none => .error .unterminatedString
  else if c = '$' then takeVariable rest
  else if c.isDigit ∨ (c = '-' ∧ startsWithDigit rest) then .ok (takeNumber (c :: rest))
  else if isIdentStart c then
    let (name, rest) := takeIdent (c :: rest)
    .ok (.ident (String.ofList name), rest)
  else .error (.unexpectedCharacter c (length - byteLength (c :: rest)))

/-- The tokens of a text. Each step consumes a character, so the length of the text is fuel
enough. -/
def tokens (length : Nat) : Nat → List Char → Except Fault (List Token)
  | _, [] => .ok []
  | 0, _ => .ok []
  | fuel + 1, c :: rest =>
      if isBlank c then tokens length fuel rest
      else
        match takeToken length c rest with
        | .error fault => .error fault
        | .ok (token, rest) => (tokens length fuel rest).map (token :: ·)

def tokenize (expression : String) : Except Fault (List Token) :=
  let cs := expression.toList
  tokens (byteLength cs) cs.length cs

end ItemClient.Filter
