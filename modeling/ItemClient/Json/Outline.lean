import ItemClient.Json.Lexeme

/-!
# Outlines of JSON texts

An outline is what a well-formed JSON text says before its leaves are checked. Members that
nobody asks for are skipped by their form alone: their numbers may be too large, their strings
may spell no character, and they may nest as deeply as they like. So a text is first read as an
outline, and only the parts that matter are turned into values by `Outline.toJson?`, which checks
the leaves and allows a limited nesting.
-/

namespace ItemClient.Json

open Text

/-- A well-formed text, with leaves that may have no value. -/
inductive Outline where
  | null
  | bool (b : Bool)
  | number (value : Option Number)
  | string (value : Option String)
  | array (items : List Outline)
  | object (members : List (Option String × Outline))

namespace Outline

/-- The blanks of a JSON text. -/
def isSpace (c : Symbol) : Bool := c == some ' ' || c == some '\n' || c == some '\t' || c == some '\r'

def skip (input : List Symbol) : List Symbol := input.dropWhile isSpace

/-- A string with its opening quote. -/
def takeName : List Symbol → Option (Option String × List Symbol)
  | some '"' :: rest => (takeString none rest).map fun (s, rest) => (s.map String.ofList, rest)
  | _ => none

mutual

/-- One value of a text and what follows it. Of two steps of the recursion at least one consumes
a symbol, so twice the length of the input is fuel enough. -/
def take : Nat → List Symbol → Option (Outline × List Symbol)
  | 0, _ => none
  | fuel + 1, input =>
      match skip input with
      | some 'n' :: some 'u' :: some 'l' :: some 'l' :: rest => some (null, rest)
      | some 't' :: some 'r' :: some 'u' :: some 'e' :: rest => some (bool true, rest)
      | some 'f' :: some 'a' :: some 'l' :: some 's' :: some 'e' :: rest => some (bool false, rest)
      | some '"' :: rest =>
          (takeName (some '"' :: rest)).map fun (s, rest) => (string s, rest)
      | some '[' :: rest =>
          match skip rest with
          | some ']' :: rest => some (array [], rest)
          | rest => (takeItems fuel rest).map fun (items, rest) => (array items, rest)
      | some '\x7b' :: rest =>
          match skip rest with
          | some '\x7d' :: rest => some (object [], rest)
          | rest => (takeMembers fuel rest).map fun (members, rest) => (object members, rest)
      | rest => (takeNumber rest).map fun (n, rest) => (number n, rest)

/-- The items of an array, from the first on, with the closing bracket. -/
def takeItems : Nat → List Symbol → Option (List Outline × List Symbol)
  | 0, _ => none
  | fuel + 1, input => do
      let (item, rest) ← take fuel input
      match skip rest with
      | some ',' :: rest =>
          let (items, rest) ← takeItems fuel rest
          return (item :: items, rest)
      | some ']' :: rest => return ([item], rest)
      | _ => none

/-- The members of an object, from the first on, with the closing brace. -/
def takeMembers : Nat → List Symbol → Option (List (Option String × Outline) × List Symbol)
  | 0, _ => none
  | fuel + 1, input => do
      let (name, rest) ← takeName (skip input)
      match skip rest with
      | some ':' :: rest =>
          let (value, rest) ← take fuel rest
          match skip rest with
          | some ',' :: rest =>
              let (members, rest) ← takeMembers fuel rest
              return ((name, value) :: members, rest)
          | some '\x7d' :: rest => return ([(name, value)], rest)
          | _ => none
      | _ => none

end

/-- The outline of a whole text: one value with nothing but blanks around it. -/
def read? (input : List Symbol) : Option Outline :=
  match take (2 * input.length + 2) input with
  | some (outline, rest) => if skip rest = [] then some outline else none
  | none => none

mutual

/-- The value an outline stands for, when each leaf has one and at most `depth` arrays and
objects are nested. Of two members under one name the later stays. -/
def toJson? (depth : Nat) : Outline → Option Json
  | null => some .null
  | bool b => some (.bool b)
  | number n => n.map .number
  | string s => s.map .string
  | array items =>
      if depth = 0 then none else (itemsToJson? (depth - 1) items).map .array
  | object members =>
      if depth = 0 then none
      else (membersToJson? (depth - 1) members).map fun ms => .object (Members.ofList ms)

def itemsToJson? (depth : Nat) : List Outline → Option (List Json)
  | [] => some []
  | a :: rest => do return (← toJson? depth a) :: (← itemsToJson? depth rest)

def membersToJson? (depth : Nat) : List (Option String × Outline) → Option (List (String × Json))
  | [] => some []
  | (name, a) :: rest => do
      return (← name, ← toJson? depth a) :: (← membersToJson? depth rest)

end

/-- The entries of a list under known names, when no name comes twice. Unknown entries are
skipped; a name that spells no text is refused. -/
def pick? (known : List String) : List (Option String × Outline) →
    Option (List (String × Outline))
  | [] => some []
  | (name, a) :: rest => do
      let name ← name
      let picked ← pick? known rest
      if name ∉ known then return picked
      else if picked.any (·.1 = name) then none
      else return (name, a) :: picked

/-- What an outline says about known members, read as a record: an object names them, an array
lists them in the order of `known` and may stop early but not go on. -/
def fields? (known : List String) : Outline → Option (List (String × Outline))
  | object members => pick? known members
  | array items => if items.length ≤ known.length then some (known.zip items) else none
  | _ => none

end Outline

/-- How many arrays and objects may nest in a text. -/
def maxDepth : Nat := 127

/-- Read a text as a value. -/
def read? (input : List Symbol) : Option Json := (Outline.read? input).bind (·.toJson? maxDepth)

/-- Read a string as a value. -/
def ofText? (s : String) : Option Json := read? (symbols s)

end ItemClient.Json
