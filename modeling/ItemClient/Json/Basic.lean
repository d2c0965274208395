import ItemClient.Json.Members
import ItemClient.Number.Binary64

/-!
# JSON values

A number is an integer of 64 bits, signed or unsigned, or a finite double, and the two are never
equal to each other. The members of an object are listed: in ascending order for a value, in
declaration order for a record that is about to be written.
-/

namespace ItemClient

namespace Json

/-- A JSON number. -/
inductive Number where
  /-- An integer between `-2 ^ 63` and `2 ^ 64 - 1`. -/
  | integer (n : Int) (inRange : -0x8000000000000000 ≤ n ∧ n < 0x10000000000000000)
  /-- A finite double. -/
  | float (x : Binary64) (finite : x.isFinite = true)
  deriving DecidableEq

namespace Number

/-- An integer as a number: a double when it has more than 64 bits. -/
def ofInt? (n : Int) : Option Number :=
  if h : -0x8000000000000000 ≤ n ∧ n < 0x10000000000000000 then some (.integer n h) else none

/-- A double as a number, if it is finite. -/
def ofFloat? (x : Binary64) : Option Number :=
  if h : x.isFinite = true then some (.float x h) else none

/-- Equality of numbers: an integer never equals a double, and the two zero doubles are equal. -/
def same : Number → Number → Bool
  | integer m _, integer n _ => m = n
  | float x _, float y _ => x.same y
  | _, _ => false

end Number

end Json

/-- A JSON value. -/
inductive Json where
  | null
  | bool (b : Bool)
  | number (n : Json.Number)
  | string (s : String)
  | array (items : List Json)
  | object (members : List (String × Json))

namespace Json

mutual

/-- Equality of values. -/
def same : Json → Json → Bool
  | null, null => true
  | bool a, bool b => a = b
  | number a, number b => a.same b
  | string a, string b => a = b
  | array a, array b => sameItems a b
  | object a, object b => sameMembers a b
  | _, _ => false

def sameItems : List Json → List Json → Bool
  | [], [] => true
  | a :: as, b :: bs => same a b && sameItems as bs
  | _, _ => false

def sameMembers : List (String × Json) → List (String × Json) → Bool
  | [], [] => true
  | (m, a) :: as, (n, b) :: bs => m = n && same a b && sameMembers as bs
  | _, _ => false

end

/-- An integer; `null` when it has more than 64 bits. -/
def ofInt (n : Int) : Json := (Number.ofInt? n).elim null number

/-- A double; `null` when it is not finite. -/
def ofFloat (x : Binary64) : Json := (Number.ofFloat? x).elim null number

def ofStrings (ss : List String) : Json := array (ss.map string)

def isObject : Json → Bool
  | object _ => true
  | _ => false

def member? (name : String) : Json → Option Json
  | object members => Members.get? name members
  | _ => none

end Json

end ItemClient
