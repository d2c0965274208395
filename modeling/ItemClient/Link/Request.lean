import ItemClient.Json.Printer

/-!
# Requests

What is asked of the remote store: a method, a path below the base URL, query parameters, headers
and a body. A request says nothing about where the store is, nor who asks; that is added when it
is sent.
-/

namespace ItemClient

/-- What a request wants done. -/
inductive Method where
  | get
  | patch
  deriving DecidableEq

def Method.name : Method → String
  | get => "GET"
  | patch => "PATCH"

/-- A request. -/
structure Request where
  method : Method
  /-- The segments of its path, not yet encoded. -/
  segments : List String
  /-- Query parameters, in order; one key may come several times. -/
  query : List (String × String) := []
  /-- Headers, in order. -/
  headers : List (String × String) := []
  body : Option Json := none
  /-- How many milliseconds the answer may take. -/
  timeout : Option Nat := none

namespace Request

def rows (collection : String) : Request :=
  { method := .get, segments := ["items", collection] }

def row (collection id : String) : Request :=
  { method := .get, segments := ["items", collection, id] }

def change (collection id : String) (changes : Json) : Request :=
  { method := .patch, segments := ["items", collection, id], body := some changes }

def withQuery (r : Request) (key value : String) : Request :=
  { r with query := r.query ++ [(key, value)] }

def withHeader (r : Request) (name value : String) : Request :=
  { r with headers := r.headers ++ [(name, value)] }

def withBody (r : Request) (body : Json) : Request := { r with body := some body }

def withTimeout (r : Request) (timeout : Option Nat) : Request := { r with timeout }

def path (r : Request) : String := "/".intercalate r.segments

/-- The value of the first query parameter under a key. -/
def queryValue? (r : Request) (key : String) : Option String :=
  (r.query.find? (·.1 = key)).map Prod.snd

end Request

/-! ## Parameters of reads -/

/-- What a read may ask for beyond its path. -/
structure ReadParams where
  filter : Option String := none
  /-- Selectors of fields, with commas between them. -/
  fields : Option String := none
  /-- How many rows are wanted at most. -/
  limit : Option Nat := none
  headers : List (String × String) := []
  timeout : Option Nat := none

namespace ReadParams

def query (p : ReadParams) : List (String × String) :=
  (p.filter.map ("filter", ·)).toList ++ (p.fields.map ("fields", ·)).toList ++
    (p.limit.map fun n => ("limit", toString n)).toList

/-- Add parameters to a request. Query parameters and headers come after those it has; the
timeout takes the place of the one it has. -/
def apply (p : ReadParams) (r : Request) : Request :=
  { r with query := r.query ++ p.query, headers := r.headers ++ p.headers, timeout := p.timeout }

end ReadParams

end ItemClient
