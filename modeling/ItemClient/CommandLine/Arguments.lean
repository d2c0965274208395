import ItemClient.Settings

/-!
# Arguments

What the words of a command line mean. Options may stand before and after the command and between
its operands; a value follows its option as the next word or after an equals sign, and a next word
that looks like an option is no value. After a lone `--` all words are operands. The words are
read from left to right, so of a fault and a request for help the earlier one counts.
-/

namespace ItemClient.CommandLine

/-- What the program is to do. -/
inductive Command where
  | ping
  | filter (expressions : List String)
  | get (collection id : String) (fields : Option String)
  | list (collection : String) (filters : List String) (fields : Option String)
      (limit : Option Nat)
  deriving DecidableEq

/-- A command line. -/
structure Arguments where
  /-- The base URL, in place of the one from the environment. -/
  url : Option String
  /-- The token, in place of the one from the environment. -/
  token : Option String
  command : Command
  deriving DecidableEq

inductive Verb where
  | ping
  | filter
  | get
  | list
  deriving DecidableEq

/-- What help is asked about. -/
inductive Topic where
  | program
  | command (verb : Verb)
  /-- The request for help itself. -/
  | help
  deriving DecidableEq

/-- What to make of a command line. -/
inductive Parsed where
  | run (arguments : Arguments)
  | help (topic : Topic)
  /-- Nothing, as the words make no sense. -/
  | rejected
  deriving DecidableEq

/-- Why reading stops before the last word. -/
inductive Stop where
  | help
  | rejected
  deriving DecidableEq

/-- Where an option may stand and how often. -/
structure OptionRule where
  /-- The name, without the hyphens before it. -/
  name : String
  repeatable : Bool := false
  numeric : Bool := false

/-- Which options and how many operands there may be. -/
structure Usage where
  options : List OptionRule
  /-- The least number of operands. -/
  least : Nat := 0
  /-- The greatest number of operands, if there is one. -/
  greatest : Option Nat := some 0

/-- What words were found to say. -/
structure Reading where
  values : List (String × String) := []
  operands : List String := []

namespace Reading

def value? (r : Reading) (name : String) : Option String :=
  (r.values.find? (·.1 = name)).map Prod.snd

def valuesOf (r : Reading) (name : String) : List String :=
  (r.values.filter (·.1 = name)).map Prod.snd

end Reading

/-! ## Words -/

/-- What a single word may be. -/
inductive Word where
  /-- The mark after which all words are operands. -/
  | escape
  /-- An option, with the value after its equals sign if there is one. -/
  | option (name : String) (value : Option String)
  /-- Letters after one hyphen. -/
  | letters (first : Char)
  /-- Anything else. -/
  | plain

/-- What a word is. A lone hyphen is a word like others. -/
def Word.ofString (s : String) : Word :=
  match s.toList with
  | ['-', '-'] => .escape
  | '-' :: '-' :: rest =>
      let name := rest.takeWhile (· ≠ '=')
      .option (String.ofList name)
        (if name.length < rest.length then some (String.ofList (rest.drop (name.length + 1)))
         else none)
  | '-' :: c :: _ => .letters c
  | _ => .plain

/-- Whether a word can be the value of the option before it. -/
def isPlain (s : String) : Bool :=
  match Word.ofString s with
  | .plain => true
  | _ => false

namespace Usage

def takeValue (u : Usage) (r : Reading) (name value : String) : Except Stop Reading :=
  match u.options.find? (·.name = name) with
  | none => .error .rejected
  | some rule =>
      if (!rule.repeatable ∧ (r.value? name).isSome) ∨
          (rule.numeric ∧ (Settings.readUnsigned? value).isNone) then .error .rejected
      else .ok { r with values := r.values ++ [(name, value)] }

def takeOperand (u : Usage) (r : Reading) (word : String) : Except Stop Reading :=
  if u.greatest.any (· ≤ r.operands.length) then .error .rejected
  else .ok { r with operands := r.operands ++ [word] }

/-- Read words until all are read or one is among `verbs`. The result has the words after that
one, if there is one. -/
def read (u : Usage) (verbs : List String) :
    List String → Reading → Except Stop (Reading × Option (String × List String))
  | [], r => .ok (r, none)
  | word :: rest, r =>
      match Word.ofString word with
      | .escape => (rest.foldlM (takeOperand u) r).map (·, none)
      | .option "help" none => .error .help
      | .option name (some value) => do read u verbs rest (← takeValue u r name value)
      | .option name none =>
          match rest with
          | value :: rest =>
              if isPlain value then do read u verbs rest (← takeValue u r name value)
              else .error .rejected
          | [] => .error .rejected
      | .letters c => .error (if c = 'h' then .help else .rejected)
      | .plain =>
          if word ∈ verbs then .ok (r, some (word, rest))
          else do read u verbs rest (← takeOperand u r word)

end Usage

/-! ## Commands -/

def globalOptions : List OptionRule := [{ name := "url" }, { name := "token" }]

namespace Verb

def name : Verb → String
  | ping => "ping"
  | filter => "filter"
  | get => "get"
  | list => "list"

def all : List Verb := [ping, filter, get, list]

def ofName? (name : String) : Option Verb := all.find? (·.name = name)

def usage : Verb → Usage
  | ping => { options := globalOptions }
  | filter => { options := globalOptions, least := 1, greatest := none }
  | get => { options := globalOptions ++ [{ name := "fields" }], least := 2, greatest := some 2 }
  | list =>
      { options := globalOptions ++ [{ name := "filter", repeatable := true },
          { name := "fields" }, { name := "limit", numeric := true }]
        least := 1, greatest := some 1 }

/-- The command that options and operands make, when they are enough. -/
def command? (v : Verb) (r : Reading) : Option Command :=
  if r.operands.length < v.usage.least then none
  else
    match v, r.operands with
    | ping, _ => some .ping
    | filter, expressions => some (.filter expressions)
    | get, collection :: id :: _ => some (.get collection id (r.value? "fields"))
    | list, collection :: _ =>
        some (.list collection (r.valuesOf "filter") (r.value? "fields")
          ((r.value? "limit").bind Settings.readUnsigned?))
    | _, _ => none

end Verb

/-- What a request for help by name asks about: at most one command, which may be `help`. -/
def helpTopic : List String → Parsed
  | [] => .help .program
  | [name] =>
      match Verb.ofName? name with
      | some v => .help (.command v)
      | none => if name = "help" then .help .help else .rejected
  | _ => .rejected

/-- Read the words after a command. Its options count before those that stand before it. -/
def parseCommand (before : Reading) (v : Verb) (words : List String) : Parsed :=
  match v.usage.read [] words {} with
  | .error .help => .help (.command v)
  | .error .rejected => .rejected
  | .ok (r, _) =>
      match v.command? r with
      | none => .rejected
      | some command =>
          .run { url := (r.value? "url").or (before.value? "url")
                 token := (r.value? "token").or (before.value? "token"), command }

def parse (words : List String) : Parsed :=
  let usage : Usage := { options := globalOptions }
  match usage.read ("help" :: Verb.all.map Verb.name) words {} with
  | .error .help => .help .program
  | .error .rejected => .rejected
  | .ok (_, none) => .rejected
  | .ok (before, some (name, rest)) =>
      match Verb.ofName? name with
      | some v => parseCommand before v rest
      | none => helpTopic rest

end ItemClient.CommandLine
