import ItemClient.Collection
import ItemClient.Filter.Basic
import ItemClient.Text.Quoted
import ItemClient.Text.Split

/-!
# Queries

A query over one collection is built up step by step: comparisons, selectors of fields, headers,
a limit, a timeout. Its comparisons are compiled only when it runs.
-/

namespace ItemClient

/-- A query. -/
structure Query where
  collection : Collection
  /-- The comparisons, as they were given. -/
  expressions : List String := []
  /-- The selectors of fields and relations. -/
  selectors : List String := []
  headers : List (String × String) := []
  limit : Option Nat := none
  timeout : Option Nat := none

namespace Query

/-- The selectors that a text lists with commas between them: spaces are dropped, and then the
pieces without any characters. -/
def splitSelectors (text : String) : List String :=
  ((Text.split ',' (text.toList.filter (· ≠ ' '))).filter (· ≠ [])).map String.ofList

def filter (q : Query) (expression : String) : Query :=
  { q with expressions := q.expressions ++ [expression] }

def includeFields (q : Query) (text : String) : Query :=
  { q with selectors := q.selectors ++ splitSelectors text }

def withHeader (q : Query) (name value : String) : Query :=
  { q with headers := q.headers ++ [(name, value)] }

def withLimit (q : Query) (limit : Nat) : Query := { q with limit := some limit }

def withTimeout (q : Query) (timeout : Nat) : Query := { q with timeout := some timeout }

/-- The text of a filter, when it has any clause. -/
def filterText? (f : Filter) : Option String := if f.isEmpty then none else some f.text

/-- Selectors with commas between them, when there are any. -/
def fieldsText? (selectors : List String) : Option String :=
  if selectors = [] then none else some (",".intercalate selectors)

/-- The parameters that a query reads with. -/
def params (q : Query) : Result ReadParams := do
  let filter ← Filter.compile q.expressions
  return { filter := filterText? filter, fields := fieldsText? q.selectors, limit := q.limit,
           headers := q.headers, timeout := q.timeout }

/-- How a query is shown to a developer. -/
def shown (q : Query) : String :=
  Text.fields "Query"
    [("collection", Text.quoted q.collection.name),
      ("filters", Text.bracketed (q.expressions.map Text.quoted)),
      ("fields", Text.bracketed (q.selectors.map Text.quoted)),
      ("limit", Text.optional (q.limit.map toString))]
    false

end Query

end ItemClient
