import ItemClient.Filter.Comparison
import ItemClient.Json.Printer

/-!
# Filters

A filter is the JSON object that the remote store takes: one clause for each field, the clauses
combined with AND.

    price > 10            {"price":{"_gt":10}}
    user.name == 'bob'    {"user":{"name":{"_eq":"bob"}}}

A later clause on a field replaces the earlier one, whatever paths lie below the field; each
replacement leaves a warning.
-/

namespace ItemClient

/-- The clauses of a filter by their top-level field. -/
structure Filter where
  /-- The clauses, in ascending order of their fields. -/
  clauses : Members Json := []

namespace Filter

/-- Wrap a clause in the names below the top-level field, the deepest innermost. -/
def nest (names : List String) (clause : Json) : Json :=
  names.foldr (fun name inner => .object [(name, inner)]) clause

/-- The top-level field of a comparison and the clause that goes under it. -/
def fold (c : Comparison) : String × Json :=
  (c.path.headD "", nest c.path.tail (.object [(c.op.operator, c.value)]))

/-- What is logged when a clause replaces an earlier one. -/
def replacementWarning (expression field : String) : String :=
  "filter clause '" ++ expression ++ "' replaces an earlier clause on '" ++ field ++ "'"

/-- Add the clause of an expression to the filter that is at hand, which is changed in place. The
result is the warning, if the clause replaces another. -/
def pushInPlace (expression : String) : ExceptT Error (StateM Filter) (Option String) := do
  let (field, clause) := fold (← Comparison.parse expression)
  let filter ← get
  set { filter with clauses := filter.clauses.put field clause }
  return if filter.clauses.has field then some (replacementWarning expression field) else none

/-- Add the clause of an expression. The result is the new filter and the warning. -/
def push (filter : Filter) (expression : String) : Result (Filter × Option String) :=
  match (pushInPlace expression).run filter with
  | (.ok warning, filter) => .ok (filter, warning)
  | (.error e, _) => .error e

/-- Add the clauses of several expressions, up to the first that is no comparison. The warnings
that were given come with the result, also when it is an error. -/
def pushAll (filter : Filter) : List String → Result Filter × List String
  | [] => (.ok filter, [])
  | expression :: rest =>
      match filter.push expression with
      | .error e => (.error e, [])
      | .ok (filter, warning) =>
          let (result, warnings) := pushAll filter rest
          (result, warning.toList ++ warnings)

/-- Compile expressions into one filter. -/
def compile (expressions : List String) : Result Filter := (pushAll {} expressions).1

def warnings (expressions : List String) : List String := (pushAll {} expressions).2

def size (filter : Filter) : Nat := filter.clauses.length

def isEmpty (filter : Filter) : Bool := filter.clauses.isEmpty

def get? (filter : Filter) (field : String) : Option Json := filter.clauses.get? field

def toJson (filter : Filter) : Json := .object filter.clauses

def text (filter : Filter) : String := filter.toJson.text

end Filter

end ItemClient
