import ItemClient.CommandLine.Run

/-!
# The program

Reads the command line and the environment, and prints what `CommandLine.run` says. The program
has no network of its own: it reports every connection as one that cannot be opened.
-/

namespace ItemClient

def settingNames : List String := ["DIRECTUS_URL", "DIRECTUS_TOKEN", "DIRECTUS_TIMEOUT_SECS"]

def readEnvironment : IO (List (String × String)) :=
  settingNames.filterMapM fun name => do return (← IO.getEnv name).map fun value => (name, value)

/-- An environment of texts. -/
def environmentOf (values : List (String × String)) : Environment := fun name =>
  (values.find? (·.1 = name)).map fun (_, value) => Text.encode value

end ItemClient

def main (words : List String) : IO UInt32 := do
  let values ← ItemClient.readEnvironment
  let report :=
    ItemClient.CommandLine.run ItemClient.Http.Network.unreachable
      (ItemClient.environmentOf values) words
  IO.print report.stdout
  IO.eprint report.stderr
  return UInt32.ofNat report.code
