import ItemClient.Text.Letter

/-!
# UUIDs

Sixteen bytes, written as 32 lowercase hexadecimal digits with hyphens after 8, 12, 16 and 20 of
them. Reading takes digits of either case in four spellings: hyphenated, bare, hyphenated within
braces, and hyphenated after `urn:uuid:`.
-/

namespace ItemClient

/-- A UUID, as its 32 hexadecimal digits. -/
structure Uuid where
  digits : List (Fin 16)
  length_eq : digits.length = 32 := by decide
  deriving DecidableEq

namespace Uuid

def nil : Uuid := ⟨List.replicate 32 0, by decide⟩

/-- Digits with a hyphen after each of the given lengths but the last. -/
def grouped : List Nat → List Char → List Char
  | [], _ => []
  | [n], ds => ds.take n
  | n :: ns, ds => ds.take n ++ ['-'] ++ grouped ns (ds.drop n)

def groups : List Nat := [8, 4, 4, 4, 12]

def write (u : Uuid) : List Char :=
  grouped groups (u.digits.map fun d => Text.hexDigit d.val)

def text (u : Uuid) : String := String.ofList u.write

/-- The digits of groups of the given lengths, with a hyphen between two groups. -/
def ungrouped? : List Nat → List Char → Option (List Char)
  | [], cs => if cs = [] then some [] else none
  | [n], cs => if cs.length = n then some cs else none
  | n :: ns, cs =>
      match cs.drop n with
      | '-' :: rest => (ungrouped? ns rest).map (cs.take n ++ ·)
      | _ => none

def digit? (c : Char) : Option (Fin 16) :=
  (Text.hexValue? c).bind fun n => if h : n < 16 then some ⟨n, h⟩ else none

/-- The UUID with the given digits, when there are 32. -/
def ofDigits? (cs : List Char) : Option Uuid :=
  (cs.mapM digit?).bind fun ds => if h : ds.length = 32 then some ⟨ds, h⟩ else none

def ofHyphenated? (cs : List Char) : Option Uuid := (ungrouped? groups cs).bind ofDigits?

/-- What stands between braces. -/
def unbraced? : List Char → Option (List Char)
  | '\x7b' :: rest => if rest.getLast? = some '\x7d' then some rest.dropLast else none
  | _ => none

/-- What stands after `urn:uuid:`, in any case. -/
def afterUrn? (cs : List Char) : Option (List Char) :=
  let urn := "urn:uuid:".toList
  if urn.isPrefixOf (cs.map Char.toLower) then some (cs.drop urn.length) else none

def read? (cs : List Char) : Option Uuid :=
  (ofDigits? cs).or <| (ofHyphenated? cs).or <|
    ((unbraced? cs).bind ofHyphenated?).or ((afterUrn? cs).bind ofHyphenated?)

end Uuid

end ItemClient
