/-!
# Ordered members

Named entries in strictly ascending order of their names, which is how the objects of a JSON
value, the clauses of a filter and the fields of a change set are kept. Names compare by code
point, which is also the order of their UTF-8 bytes.
-/

namespace ItemClient

/-- Named entries. -/
abbrev Members (α : Type) := List (String × α)

namespace Members

variable {α : Type}

def get? (name : String) : Members α → Option α
  | [] => none
  | (n, a) :: rest => if n = name then some a else get? name rest

/-- Put an entry under a name, in place of the one that was there. -/
def put (name : String) (a : α) : Members α → Members α
  | [] => [(name, a)]
  | (n, b) :: rest =>
      if n = name then (name, a) :: rest
      else if name < n then (name, a) :: (n, b) :: rest
      else (n, b) :: put name a rest

def has (name : String) (members : Members α) : Bool := (members.get? name).isSome

def names (members : Members α) : List String := members.map Prod.fst

/-- Put entries one after the other: of two under one name the later stays. -/
def putAll (entries : List (String × α)) (members : Members α) : Members α :=
  entries.foldl (fun ms (name, a) => ms.put name a) members

/-- Named entries in any order, sorted; of two under one name the later stays. -/
def ofList (entries : List (String × α)) : Members α := putAll entries []

end Members

end ItemClient
