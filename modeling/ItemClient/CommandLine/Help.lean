import ItemClient.CommandLine.Arguments

/-!
# Help texts

What the program says about itself and its commands. The entries of a list start in one column
and their explanations in another.
-/

namespace ItemClient.CommandLine

def programName : String := "rustdirectus"

/-- Lines of two columns, the first as wide as its widest entry. -/
def columns (entries : List (String × String)) : List String :=
  let width := (entries.map (·.1.length)).foldl max 0
  entries.map fun (entry, about) =>
    "  " ++ entry ++ String.ofList (List.replicate (width - entry.length + 2) ' ') ++ about

def commonOptions : List (String × String) :=
  [("      --url <URL>", "Base URL; defaults to DIRECTUS_URL"),
    ("      --token <TOKEN>", "Access token; defaults to DIRECTUS_TOKEN")]

def helpOption : String × String := ("  -h, --help", "Print help")

/-- The entries of two lists by turns, and then what is left of the longer one. -/
def takeTurns {α : Type} : List α → List α → List α
  | [], bs => bs
  | as, [] => as
  | a :: as, b :: bs => a :: b :: takeTurns as bs

/-- Options as lines; the indentation is theirs already. -/
def optionLines (options : List (String × String)) : List String :=
  (columns options).map fun line => (line.drop 2).toString

namespace Verb

def about : Verb → String
  | ping => "Check that the instance answers its health endpoint"
  | filter => "Print the filter object for one or more comparisons"
  | get => "Fetch one item as JSON"
  | list => "List items as JSON"

def operands : Verb → List String
  | ping => []
  | filter => ["<EXPRESSIONS>..."]
  | get => ["<COLLECTION>", "<ID>"]
  | list => ["<COLLECTION>"]

def ownOptions : Verb → List (String × String)
  | ping | filter => []
  | get => [("      --fields <FIELDS>", "")]
  | list =>
      [("      --filter <FILTERS>", ""), ("      --fields <FIELDS>", ""),
        ("      --limit <LIMIT>", "")]

/-- The options of a command in the order in which they are explained: its own and the common
ones by turns, and the one for help last. -/
def options (v : Verb) : List (String × String) :=
  takeTurns v.ownOptions commonOptions ++ [helpOption]

end Verb

def helpAbout : String := "Print this message or the help of the given subcommand(s)"

def programHelp : List String :=
  ["Inspect a Directus instance and compile filter expressions", "",
    "Usage: " ++ programName ++ " [OPTIONS] <COMMAND>", "", "Commands:"] ++
    columns (Verb.all.map (fun v => (v.name, v.about)) ++ [("help", helpAbout)]) ++
    ["", "Options:"] ++ optionLines (commonOptions ++ [helpOption])

def commandHelp (v : Verb) : List String :=
  [v.about, "",
    " ".intercalate (["Usage:", programName, v.name, "[OPTIONS]"] ++ v.operands), ""] ++
    (if v.operands = [] then []
      else ["Arguments:"] ++ columns (v.operands.map (·, "")) ++ [""]) ++
    ["Options:"] ++ optionLines v.options

def helpHelp : List String :=
  [helpAbout, "", "Usage: " ++ programName ++ " help [COMMAND]...", "", "Arguments:"] ++
    columns [("[COMMAND]...", "Print help for the subcommand(s)")]

def Topic.lines : Topic → List String
  | program => programHelp
  | command v => commandHelp v
  | help => helpHelp

def helpText (topic : Topic) : String := String.join (topic.lines.map (· ++ "\n"))

end ItemClient.CommandLine
