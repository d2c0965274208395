import ItemClient.CommandLine.Help
import ItemClient.Filter.Basic
import ItemClient.Http.Link
import ItemClient.Query

/-!
# Running a command line

What the program prints and the code it exits with. Settings come from the environment, then from
options. A failure is reported with the causes below it, one to a line.
-/

namespace ItemClient.CommandLine

open Http

/-- What a run of the program leaves behind. -/
structure Report where
  code : Nat
  stdout : String := ""
  stderr : String := ""

/-- A failure, and what was being done when it happened. -/
structure Failure where
  /-- What was being done, where that is not plain from the error. -/
  context : Option String := none
  error : Error

namespace Failure

/-- The first line of a report and the causes below it. -/
def headline (f : Failure) : String × List String :=
  match f.context with
  | none => (f.error.message, f.error.causes)
  | some context => (context, f.error.message :: f.error.causes)

/-- A text with its further lines indented. -/
def indented (indent text : String) : String := text.replace "\n" ("\n" ++ indent)

/-- Causes with their numbers, one to a line. -/
def numbered : Nat → List String → List String
  | _, [] => []
  | n, cause :: rest =>
      (String.ofList (List.replicate (5 - (toString n).length) ' ') ++ toString n ++ ": " ++
        indented "       " cause) :: numbered (n + 1) rest

/-- The block of causes: a single one has no number. -/
def causeLines : List String → List String
  | [] => []
  | [cause] => ["", "Caused by:", "    " ++ indented "    " cause]
  | causes => ["", "Caused by:"] ++ numbered 0 causes

def report (f : Failure) : String :=
  let (first, causes) := f.headline
  "\n".intercalate (("Error: " ++ first) :: causeLines causes) ++ "\n"

end Failure

/-- The outcome of a command. -/
abbrev Attempt (α : Type) := Except Failure α

/-- An outcome whose error speaks for itself. -/
def plainly {α : Type} (r : Result α) : Attempt α := r.mapError fun e => { error := e }

/-- An outcome whose error is reported below what was being done. -/
def whileDoing {α : Type} (context : String) (r : Result α) : Attempt α :=
  r.mapError fun e => { context := some context, error := e }

def settings (env : Environment) (a : Arguments) : Result Settings := do
  let s ← Settings.ofEnvironment env
  let s := { s with baseUrl := a.url.getD s.baseUrl, token := a.token.or s.token }
  s.validate
  return s

def connect (env : Environment) (a : Arguments) : Attempt Endpoint := do
  let s ← plainly (settings env a)
  whileDoing ("cannot build transport for " ++ s.baseUrl) (Endpoint.ofSettings s)

def getRequest (collection id : String) (fields : Option String) : Request :=
  ({ fields } : ReadParams).apply (.row collection id)

def listRequest (collection : String) (filters : List String) (fields : Option String)
    (limit : Option Nat) : Result Request := do
  let filter ← Filter.compile filters
  return ({ filter := Query.filterText? filter, fields, limit } : ReadParams).apply
    (.rows collection)

/-- What is printed of the answer to a read: its data. -/
def printed (r : Request) (answer : Result Response) : Attempt String := do
  let response ← whileDoing ("request to " ++ r.path ++ " failed") answer
  let data ← plainly (Envelope.decode some response)
  return data.pretty ++ "\n"

/-- Send a read and print the data of its answer. -/
def printData (e : Endpoint) (network : Network) (r : Request) : Attempt String :=
  printed r (e.send network r)

def execute (network : Network) (env : Environment) (a : Arguments) : Attempt String := do
  match a.command with
  | .filter expressions =>
      let filter ← plainly (Filter.compile expressions)
      return filter.toJson.pretty ++ "\n"
  | .ping =>
      let e ← connect env a
      plainly (e.ping network)
      return "ok\n"
  | .get collection id fields =>
      let e ← connect env a
      printData e network (getRequest collection id fields)
  | .list collection filters fields limit =>
      let e ← connect env a
      let r ← plainly (listRequest collection filters fields limit)
      printData e network r

def run (network : Network) (env : Environment) (words : List String) : Report :=
  match parse words with
  | .help topic => { code := 0, stdout := helpText topic }
  | .rejected => { code := 2 }
  | .run a =>
      match execute network env a with
      | .ok stdout => { code := 0, stdout }
      | .error failure => { code := 1, stderr := failure.report }

end ItemClient.CommandLine
