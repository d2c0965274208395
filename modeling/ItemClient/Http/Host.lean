import ItemClient.Http.Percent
import ItemClient.Http.Punycode
import ItemClient.Text.Extending
import ItemClient.Text.Split
import ItemClient.Text.Unprintable

/-!
# Hosts

The host of a URL: a domain name, an address of 32 bits or an address of 128 bits. A host whose
last part is a number is always an address, in decimal, octal or hexadecimal parts, of which the
last fills all bytes that are left. Names beyond ASCII are folded to lower case and written in
Punycode.
-/

namespace ItemClient.Http

/-- What is wrong with a URL. -/
inductive UrlFault where
  /-- There is no scheme. -/
  | relative
  | emptyHost
  /-- A host in brackets is no address. -/
  | badIpv6
  /-- A host that ends in a number is no address. -/
  | badIpv4
  | badDomain
  | badCharacter
  | badPort
  deriving DecidableEq

def UrlFault.reason : UrlFault → String
  | relative => "relative URL without a base"
  | emptyHost => "empty host"
  | badIpv6 => "invalid IPv6 address"
  | badIpv4 => "invalid IPv4 address"
  | badDomain => "invalid international domain name"
  | badCharacter => "invalid domain character"
  | badPort => "invalid port number"

/-- A host. -/
inductive Host where
  | domain (name : List Char)
  /-- An address of four bytes. -/
  | ipv4 (address : Nat)
  /-- An address of eight groups of 16 bits. -/
  | ipv6 (groups : List Nat)

namespace Host

/-! ## Addresses of four bytes -/

/-- The number that digits of a base spell, when all of them are digits of the base. -/
def number? (base : Nat) (cs : List Char) : Option Nat := do
  let ds ← cs.mapM Text.hexValue?
  if ds.all (· < base) then some (ds.foldl (fun n d => base * n + d) 0) else none

/-- A part of an address: hexadecimal after `0x`, octal after `0`, decimal otherwise. -/
def part? : List Char → Option Nat
  | [] => none
  | '0' :: 'x' :: rest | '0' :: 'X' :: rest => number? 16 rest
  | '0' :: c :: rest => number? 8 (c :: rest)
  | cs => number? 10 cs

/-- The parts of a name, without the one that a last dot leaves empty. -/
def parts (name : List Char) : List (List Char) :=
  let ps := Text.split '.' name
  if ps.getLast? = some [] ∧ 1 < ps.length then ps.dropLast else ps

/-- Whether the last part of a name is a number. -/
def endsInNumber (name : List Char) : Bool :=
  match (parts name).getLast? with
  | none => false
  | some last => (last ≠ [] && last.all Char.isDigit) || (part? last).isSome

/-- The address that leading bytes and a last part make. -/
def address? (bytes : List Nat) (last : Nat) : Option Nat :=
  let room := Nat.pow 256 (4 - bytes.length)
  if bytes.all (· < 256) ∧ last < room then
    some (bytes.foldl (fun n b => 256 * n + b) 0 * room + last)
  else none

/-- Read an address of four bytes. -/
def ipv4? (name : List Char) : Option Nat := do
  let numbers ← (parts name).mapM part?
  if 4 < numbers.length then none else address? numbers.dropLast (← numbers.getLast?)

def writeIpv4 (address : Nat) : List Char :=
  let byte (k : Nat) := Nat.toDigits 10 (address / Nat.pow 256 k % 256)
  byte 3 ++ ['.'] ++ byte 2 ++ ['.'] ++ byte 1 ++ ['.'] ++ byte 0

/-! ## Addresses of eight groups -/

/-- A group: up to four hexadecimal digits. -/
def group? (cs : List Char) : Option Nat :=
  if cs ≠ [] ∧ cs.length ≤ 4 then number? 16 cs else none

/-- A byte in decimal digits without a leading zero. -/
def byte? : List Char → Option Nat
  | ['0'] => some 0
  | '0' :: _ => none
  | [] => none
  | cs => (number? 10 cs).bind fun n => if n < 256 then some n else none

/-- The two groups of an address of four bytes. -/
def tailGroups? (cs : List Char) : Option (List Nat) := do
  match ← (Text.split '.' cs).mapM byte? with
  | [a, b, c, d] => some [256 * a + b, 256 * c + d]
  | _ => none

/-- Groups with colons between them; the last may be an address of four bytes. -/
def groupList? : List (List Char) → Option (List Nat)
  | [] => some []
  | [last] => if last.contains '.' then tailGroups? last else (group? last).map ([·])
  | first :: rest => do return (← group? first) :: (← groupList? rest)

/-- What stands before the first two colons in a row, and what stands after them if there are
any. -/
def cutAtGap : List Char → List Char × Option (List Char)
  | ':' :: ':' :: rest => ([], some rest)
  | c :: rest =>
      let (before, after) := cutAtGap rest
      (c :: before, after)
  | [] => ([], none)

/-- The groups of a text, of which there may be none. -/
def groups? (cs : List Char) : Option (List Nat) :=
  if cs = [] then some [] else groupList? (Text.split ':' cs)

/-- Read an address of eight groups. Two colons in a row stand for one or more groups of zero. -/
def ipv6? (cs : List Char) : Option (List Nat) := do
  match cutAtGap cs with
  | (whole, none) =>
      let groups ← groups? whole
      if groups.length = 8 then some groups else none
  | (before, some after) =>
      if before.contains '.' then none
      else
        let head ← groups? before
        let tail ← groups? after
        if head.length + tail.length < 8 then
          some (head ++ List.replicate (8 - head.length - tail.length) 0 ++ tail)
        else none

/-- The length of the run of zeros that a list starts with. -/
def zeroRun (groups : List Nat) : Nat := (groups.takeWhile (· = 0)).length

/-- The longest run of zeros in a list, the first of those, as its start and length. -/
def longestRun : Nat → List Nat → Nat × Nat
  | _, [] => (0, 0)
  | start, g :: rest =>
      let here := zeroRun (g :: rest)
      let (found, length) := longestRun (start + 1) rest
      if here ≠ 0 ∧ length ≤ here then (start, here) else (found, length)

def writeGroups (groups : List Nat) : List Char :=
  [':'].intercalate (groups.map (Nat.toDigits 16))

/-- An address of eight groups as text: the longest run of two or more zeros is left out. -/
def writeIpv6 (groups : List Nat) : List Char :=
  let (start, length) := longestRun 0 groups
  if length < 2 then writeGroups groups
  else writeGroups (groups.take start) ++ [':', ':'] ++ writeGroups (groups.drop (start + length))

/-! ## Names -/

/-- Whether an ASCII character may not stand in a domain name. -/
def isForbidden (c : Char) : Bool :=
  c.toNat ≤ 0x20 || c.toNat = 0x7F ||
    ['%', '#', '/', ':', '<', '>', '?', '@', '[', '\\', ']', '^', '\x60', '\x7b', '|',
      '\x7d'].contains c

/-- Whether a character is dropped from a domain name. -/
def isIgnored (c : Char) : Bool :=
  let n := c.toNat
  n = 0xAD || n = 0x200B || n = 0x2060 || n = 0xFEFF || (0xFE00 ≤ n && n ≤ 0xFE0F)

/-- Whether a code is of a capital of a script in which capitals and small letters alternate. -/
def isAlternatingCapital (n : Nat) : Bool :=
  (n % 2 = 0 && ((0x100 ≤ n && n ≤ 0x12E) || (0x132 ≤ n && n ≤ 0x136) ||
      (0x14A ≤ n && n ≤ 0x176) || (0x1E00 ≤ n && n ≤ 0x1E94) || (0x460 ≤ n && n ≤ 0x480))) ||
    (n % 2 = 1 && ((0x139 ≤ n && n ≤ 0x147) || (0x179 ≤ n && n ≤ 0x17D)))

/-- The small letter of a capital in the Latin, Greek, Cyrillic or Armenian script, also of the
wide form of an ASCII character; other characters stay. The ideographic full stop is a dot. -/
def fold (c : Char) : Char :=
  let n := c.toNat
  if n < 0x80 then c.toLower
  else if n = 0x3002 ∨ n = 0xFF61 then '.'
  else if 0xFF01 ≤ n ∧ n ≤ 0xFF5E then (Char.ofNat (n - 0xFEE0)).toLower
  else if (0xC0 ≤ n ∧ n ≤ 0xDE ∧ n ≠ 0xD7) ∨ (0x391 ≤ n ∧ n ≤ 0x3A9) ∨ (0x410 ≤ n ∧ n ≤ 0x42F)
  then Char.ofNat (n + 0x20)
  else if 0x400 ≤ n ∧ n ≤ 0x40F then Char.ofNat (n + 0x50)
  else if 0x531 ≤ n ∧ n ≤ 0x556 then Char.ofNat (n + 0x30)
  else if n = 0x178 then Char.ofNat 0xFF
  else if isAlternatingCapital n then Char.ofNat (n + 1)
  else c

/-- Whether a character beyond ASCII may not stand in a domain name: it shows nothing. -/
def isInvisible (c : Char) : Bool := 0x80 ≤ c.toNat && Text.inRanges Text.unprintableRanges c.toNat

/-- Whether a label may stand in a domain name. -/
def isLabel (label : List Char) : Bool :=
  !label.any (fun c => isForbidden c || isInvisible c) &&
    !label.head?.any fun c => Text.inRanges Text.extendingRanges c.toNat

/-- The label that a label in Punycode stands for. It must need Punycode, and be folded. -/
def decodedLabel? (code : List Char) : Option (List Char) := do
  let label ← Punycode.decode? code
  if label.any (fun c => 0x80 ≤ c.toNat) ∧ label.all (fun c => fold c = c ∧ !isIgnored c) ∧
      isLabel label then some label
  else none

/-- A folded label in ASCII. -/
def asciiLabel? (label : List Char) : Option (List Char) :=
  match label with
  | 'x' :: 'n' :: '-' :: '-' :: code => (decodedLabel? code).map fun _ => label
  | label =>
      if !isLabel label then none
      else if label.all fun c => c.toNat < 0x80 then some label
      else some (['x', 'n', '-', '-'] ++ Punycode.encode label)

/-- A domain name in ASCII. -/
def asciiName? (name : List Char) : Option (List Char) := do
  let labels := Text.split '.' ((name.filter fun c => !isIgnored c).map fold)
  return ['.'].intercalate (← labels.mapM asciiLabel?)

/-! ## Reading and writing -/

/-- What stands between brackets at both ends. -/
def bracketed? : List Char → Option (List Char)
  | '[' :: rest => if rest.getLast? = some ']' then some rest.dropLast else none
  | _ => none

def readBracketed (cs : List Char) : Except UrlFault Host :=
  match (bracketed? cs).bind ipv6? with
  | some groups => .ok (.ipv6 groups)
  | none => .error .badIpv6

/-- Read the host of a URL of the web. -/
def read (cs : List Char) : Except UrlFault Host :=
  if cs.head? = some '[' then readBracketed cs
  else
    match (Text.decodeText? (percentDecode cs)).bind fun s => asciiName? s.toList with
    | none => .error .badDomain
    | some name =>
        if name = [] then .error .emptyHost
        else if endsInNumber name then
          match ipv4? name with
          | some address => .ok (.ipv4 address)
          | none => .error .badIpv4
        else .ok (.domain name)

/-- Whether a character may not stand in a host of another URL. -/
def isForbiddenElsewhere (c : Char) : Bool :=
  ['\x00', '\t', '\n', '\r', ' ', '#', '/', ':', '<', '>', '?', '@', '[', '\\', ']', '^',
    '|'].contains c

/-- Read the host of another URL. -/
def readOpaque (cs : List Char) : Except UrlFault Host :=
  if cs.head? = some '[' then readBracketed cs
  else if cs.any isForbiddenElsewhere then .error .badCharacter
  else .ok (.domain (percentEncode isRaw cs))

def write : Host → List Char
  | domain name => name
  | ipv4 address => writeIpv4 address
  | ipv6 groups => ['['] ++ writeIpv6 groups ++ [']']

/-- Whether a host is a name without any character. -/
def isEmpty : Host → Bool
  | domain name => name.isEmpty
  | _ => false

end Host

end ItemClient.Http
