import ItemClient.Json.Basic
import ItemClient.Number.DecimalText
import ItemClient.Text.Letter

/-!
# Writing JSON

`Json.write` is the compact text of a value and `Json.pretty` the text over several lines, two
spaces to a level. Inside strings only the quote, the backslash and the control characters below
U+0020 are escaped; everything else stands for itself.
-/

namespace ItemClient.Json

def writeChar (c : Char) : List Char :=
  match c with
  | '"' => ['\\', '"']
  | '\\' => ['\\', '\\']
  | '\x08' => ['\\', 'b']
  | '\t' => ['\\', 't']
  | '\n' => ['\\', 'n']
  | '\x0c' => ['\\', 'f']
  | '\r' => ['\\', 'r']
  | c =>
      if c.toNat < 0x20 then
        ['\\', 'u', '0', '0', Text.hexDigit (c.toNat / 16), Text.hexDigit (c.toNat % 16)]
      else [c]

def writeString (s : String) : List Char := ['"'] ++ s.toList.flatMap writeChar ++ ['"']

def writeInt (n : Int) : List Char :=
  (if n < 0 then ['-'] else []) ++ Nat.toDigits 10 n.natAbs

def Number.write : Number → List Char
  | .integer n _ => writeInt n
  | .float x _ => x.text

mutual

/-- The compact text of a value. -/
def write : Json → List Char
  | null => ['n', 'u', 'l', 'l']
  | bool true => ['t', 'r', 'u', 'e']
  | bool false => ['f', 'a', 'l', 's', 'e']
  | number n => n.write
  | string s => writeString s
  | array items => ['['] ++ writeItems items ++ [']']
  | object members => ['\x7b'] ++ writeMembers members ++ ['\x7d']

def writeItems : List Json → List Char
  | [] => []
  | [a] => write a
  | a :: b :: rest => write a ++ [','] ++ writeItems (b :: rest)

def writeMembers : List (String × Json) → List Char
  | [] => []
  | [(name, a)] => writeString name ++ [':'] ++ write a
  | (name, a) :: m :: rest =>
      writeString name ++ [':'] ++ write a ++ [','] ++ writeMembers (m :: rest)

end

/-- The compact text of a value. -/
def text (j : Json) : String := String.ofList j.write

/-- The start of a line at a level. -/
def indentation (level : Nat) : List Char := '\n' :: List.replicate (2 * level) ' '

mutual

/-- The text of a value over several lines, from a level on. An array or object without entries
stays on its line. -/
def writePretty (level : Nat) : Json → List Char
  | array [] => ['[', ']']
  | object [] => ['\x7b', '\x7d']
  | array (a :: rest) => ['['] ++ prettyItems (level + 1) (a :: rest) ++ indentation level ++ [']']
  | object (m :: rest) =>
      ['\x7b'] ++ prettyMembers (level + 1) (m :: rest) ++ indentation level ++ ['\x7d']
  | j => write j

def prettyItems (level : Nat) : List Json → List Char
  | [] => []
  | [a] => indentation level ++ writePretty level a
  | a :: b :: rest =>
      indentation level ++ writePretty level a ++ [','] ++ prettyItems level (b :: rest)

def prettyMembers (level : Nat) : List (String × Json) → List Char
  | [] => []
  | [(name, a)] => indentation level ++ writeString name ++ [':', ' '] ++ writePretty level a
  | (name, a) :: m :: rest =>
      indentation level ++ writeString name ++ [':', ' '] ++ writePretty level a ++ [','] ++
        prettyMembers level (m :: rest)

end

/-- The text of a value over several lines. -/
def pretty (j : Json) : String := String.ofList (writePretty 0 j)

end ItemClient.Json
