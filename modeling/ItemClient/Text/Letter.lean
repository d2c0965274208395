import ItemClient.Text.Alphabetic
import ItemClient.Text.Numeric

/-!
# Blanks, letters and digits

The three character classes that expressions and settings are read with. Each is a Unicode
property: white space, `Alphabetic`, and `Alphabetic` together with the numeric categories.
ASCII is decided by core's own tests, so a table is consulted only above it.
-/

namespace ItemClient.Text

/-- Whether `n` lies in one of the ascending inclusive ranges. -/
def inRanges : List (Nat × Nat) → Nat → Bool
  | [], _ => false
  | (low, high) :: rest, n =>
      if n < low then false else if n ≤ high then true else inRanges rest n

/-- Unicode white space. -/
def isBlank (c : Char) : Bool :=
  let n := c.toNat
  (0x09 ≤ n && n ≤ 0x0D) || n == 0x20 || n == 0x85 || n == 0xA0 || n == 0x1680 ||
    (0x2000 ≤ n && n ≤ 0x200A) || n == 0x2028 || n == 0x2029 || n == 0x202F || n == 0x205F ||
    n == 0x3000

/-- Unicode alphabetic characters. -/
def isLetter (c : Char) : Bool :=
  if c.toNat < 0x80 then c.isAlpha else inRanges alphabeticRanges c.toNat

/-- Unicode numeric characters: decimal digits of any script, letter numbers and the rest. -/
def isNumeric (c : Char) : Bool :=
  if c.toNat < 0x80 then c.isDigit else inRanges numericRanges c.toNat

/-- Letters and numeric characters. -/
def isAlphanumeric (c : Char) : Bool := isLetter c || isNumeric c

def isBlankText (s : String) : Bool := s.toList.all isBlank

/-- Drop the white space a text starts with. -/
def dropBlanks (cs : List Char) : List Char := cs.dropWhile isBlank

/-- The number of bytes a text takes in UTF-8. -/
def byteLength (cs : List Char) : Nat := cs.foldr (fun c n => c.utf8Size + n) 0

def digitValue (c : Char) : Nat := c.toNat - '0'.toNat

def decimalValue (ds : List Char) : Nat := ds.foldl (fun n d => 10 * n + digitValue d) 0

/-- The value of a hexadecimal digit in either case. -/
def hexValue? (c : Char) : Option Nat :=
  if '0' ≤ c ∧ c ≤ '9' then some (c.toNat - '0'.toNat)
  else if 'a' ≤ c ∧ c ≤ 'f' then some (c.toNat - 'a'.toNat + 10)
  else if 'A' ≤ c ∧ c ≤ 'F' then some (c.toNat - 'A'.toNat + 10)
  else none

/-- The lowercase hexadecimal digit of a value below sixteen. -/
def hexDigit (n : Nat) : Char :=
  if n < 10 then Char.ofNat ('0'.toNat + n) else Char.ofNat ('a'.toNat + (n - 10))

/-- A character in lower case, when it is an ASCII capital. -/
def lowerAscii (s : String) : String := String.ofList (s.toList.map Char.toLower)

/-- A number in decimal digits, padded on the left with zeros. -/
def padZeros (width n : Nat) : List Char :=
  let digits := Nat.toDigits 10 n
  List.replicate (width - digits.length) '0' ++ digits

end ItemClient.Text
