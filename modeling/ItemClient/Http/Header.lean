import ItemClient.Text.Letter

/-!
# Headers

A header has a name, which is a token in any case, and a value without control characters. Two
names are the same when they differ in case only.
-/

namespace ItemClient.Http

/-- A header, its name in lower case. -/
structure Header where
  name : String
  value : String
  deriving DecidableEq

namespace Header

def isNameChar (c : Char) : Bool :=
  c.isAlphanum ||
    ['!', '#', '$', '%', '&', '\'', '*', '+', '-', '.', '^', '_', '\x60', '|', '~'].contains c

def isName (s : String) : Bool := s ≠ "" && s.toList.all isNameChar

/-- Whether a character may stand in a value: a tab may, other control characters may not. -/
def isValueChar (c : Char) : Bool := c == '\t' || (0x20 ≤ c.toNat && c.toNat ≠ 0x7F)

def isValue (s : String) : Bool := s.toList.all isValueChar

def badValue : String := "failed to parse header value"

def badName : String := "invalid HTTP header name"

/-- The header of a name and a value, or what is wrong with them. -/
def make (name value : String) : Except String Header :=
  if !isName name then .error badName
  else if !isValue value then .error badValue
  else .ok { name := Text.lowerAscii name, value }

def authorization : String := "authorization"

def isAuthorization (name : String) : Bool := Text.lowerAscii name = authorization

end Header

end ItemClient.Http
