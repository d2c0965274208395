import ItemClient.Text.Extending
import ItemClient.Text.Letter
import ItemClient.Text.Unprintable

/-!
# Quoted text

How a text is shown to a developer: between double quotes, with the quote, the backslash and
everything that leaves no mark of its own written as an escape. Also the shapes that hold
quoted texts: lists, optional values and durations.
-/

namespace ItemClient.Text

/-- Whether a character shows by itself: it is printable and does not hang on the one before. -/
def showsItself (c : Char) : Bool :=
  let n := c.toNat
  if n < 0x7F then 0x20 ≤ n
  else n != 0x7F && !inRanges extendingRanges n && !inRanges unprintableRanges n

/-- A code point as `\u{hex}`. -/
def codeEscape (c : Char) : List Char :=
  ['\\', 'u', '\x7b'] ++ Nat.toDigits 16 c.toNat ++ ['\x7d']

/-- One character inside quotes. -/
def quoteChar (c : Char) : List Char :=
  match c with
  | '\x00' => ['\\', '0']
  | '\t' => ['\\', 't']
  | '\r' => ['\\', 'r']
  | '\n' => ['\\', 'n']
  | '\\' => ['\\', '\\']
  | '"' => ['\\', '"']
  | c => if showsItself c then [c] else codeEscape c

/-- A text between double quotes. -/
def quoted (s : String) : String :=
  String.ofList (['"'] ++ s.toList.flatMap quoteChar ++ ['"'])

/-- Shown items between square brackets. -/
def bracketed (items : List String) : String := "[" ++ ", ".intercalate items ++ "]"

def optional : Option String → String
  | none => "None"
  | some item => "Some(" ++ item ++ ")"

/-- Shown fields between braces after a name; `.openEnded` says that there are more. -/
def fields (name : String) (members : List (String × String)) (openEnded : Bool) : String :=
  let shown := members.map fun (field, value) => field ++ ": " ++ value
  let shown := if openEnded then shown ++ [".."] else shown
  name ++ " \x7b " ++ ", ".intercalate shown ++ " \x7d"

/-- Drop the zeros a list of digits ends with. -/
def dropTrailingZeros (ds : List Char) : List Char := (ds.reverse.dropWhile (· == '0')).reverse

/-- A number of milliseconds in the largest unit that leaves a whole part: `1.5s`, `999ms`, and
`0ns` for none at all. -/
def duration (milliseconds : Nat) : String :=
  if milliseconds = 0 then "0ns"
  else if milliseconds < 1000 then toString milliseconds ++ "ms"
  else
    let fraction := dropTrailingZeros (padZeros 3 (milliseconds % 1000))
    let whole := Nat.toDigits 10 (milliseconds / 1000)
    String.ofList (whole ++ (if fraction = [] then [] else '.' :: fraction) ++ ['s'])

end ItemClient.Text
