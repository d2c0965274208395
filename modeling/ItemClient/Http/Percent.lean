import ItemClient.Text.Letter
import ItemClient.Text.Utf8

/-!
# Percent encoding

Characters that may not stand for themselves in a part of a URL are written as the bytes of their
UTF-8 form, each as a percent sign and two hexadecimal digits. Which characters these are depends
on the part; everything beyond ASCII is always among them. Query parameters have a form of their
own, in which a space is a plus sign.
-/

namespace ItemClient.Http

def upperHexDigit (n : Nat) : Char := (Text.hexDigit n).toUpper

/-- A byte as a percent sign and two digits. -/
def percentByte (b : UInt8) : List Char :=
  ['%', upperHexDigit (b.toNat / 16), upperHexDigit (b.toNat % 16)]

/-- A character by the bytes of its UTF-8 form. -/
def percentChar (c : Char) : List Char := (String.utf8EncodeChar c).flatMap percentByte

/-- Whether a character is beyond ASCII or a control character. -/
def isRaw (c : Char) : Bool := c.toNat < 0x20 || 0x7E < c.toNat

def inFragment (c : Char) : Bool := isRaw c || [' ', '"', '<', '>', '\x60'].contains c

def inPath (c : Char) : Bool := inFragment c || ['#', '?', '\x7b', '\x7d'].contains c

/-- What is encoded in a path segment that is given as such. -/
def inSegment (c : Char) : Bool := inPath c || ['/', '%'].contains c

/-- What is encoded in such a segment where the backslash parts segments. -/
def inSpecialSegment (c : Char) : Bool := inSegment c || c == '\\'

def inUserInfo (c : Char) : Bool :=
  inPath c || ['/', ':', ';', '=', '@', '[', '\\', ']', '^', '|'].contains c

def inQuery (c : Char) : Bool := isRaw c || [' ', '"', '#', '<', '>'].contains c

def inSpecialQuery (c : Char) : Bool := inQuery c || c == '\''

def percentEncode (set : Char → Bool) (cs : List Char) : List Char :=
  cs.flatMap fun c => if set c then percentChar c else [c]

/-- The byte of two hexadecimal digits. -/
def hexByte? (a b : Char) : Option UInt8 := do
  let a ← Text.hexValue? a
  let b ← Text.hexValue? b
  return UInt8.ofNat (16 * a + b)

/-- The bytes of a text in which percent signs with two digits stand for bytes. -/
def percentDecode : List Char → List UInt8
  | [] => []
  | '%' :: a :: b :: rest =>
      match hexByte? a b with
      | some byte => byte :: percentDecode rest
      | none => String.utf8EncodeChar '%' ++ percentDecode (a :: b :: rest)
  | c :: rest => String.utf8EncodeChar c ++ percentDecode rest

/-! ## Query parameters -/

/-- A byte of a query parameter. -/
def formByte (b : UInt8) : List Char :=
  let c := Char.ofNat b.toNat
  if c.isAlphanum || ['*', '-', '.', '_'].contains c then [c]
  else if c == ' ' then ['+']
  else percentByte b

def formEncode (s : String) : List Char := (Text.encode s).flatMap formByte

def formPair (pair : String × String) : List Char :=
  formEncode pair.1 ++ ['='] ++ formEncode pair.2

/-- Query parameters, added to the query that is there. -/
def appendForm (query : List Char) (pairs : List (String × String)) : List Char :=
  pairs.foldl (fun q pair => (if q = [] then [] else q ++ ['&']) ++ formPair pair) query

end ItemClient.Http
