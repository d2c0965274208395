import ItemClient.Text.Utf8

/-!
# Base64

Bytes as letters, digits and two signs, four characters for three bytes. A last group of fewer
bytes is filled up with equals signs.
-/

namespace ItemClient.Http.Base64

/-- The character of six bits. -/
def sextet (n : Nat) : Char :=
  if n < 26 then Char.ofNat ('A'.toNat + n)
  else if n < 52 then Char.ofNat ('a'.toNat + (n - 26))
  else if n < 62 then Char.ofNat ('0'.toNat + (n - 52))
  else if n = 62 then '+'
  else '/'

/-- The four characters of three bytes. -/
def quartet (a b c : Nat) : List Char :=
  let n := 0x10000 * a + 0x100 * b + c
  [sextet (n / 0x40000), sextet (n / 0x1000 % 64), sextet (n / 0x40 % 64), sextet (n % 64)]

def encode : List UInt8 → List Char
  | [] => []
  | [a] => (quartet a.toNat 0 0).take 2 ++ ['=', '=']
  | [a, b] => (quartet a.toNat b.toNat 0).take 3 ++ ['=']
  | a :: b :: c :: rest => quartet a.toNat b.toNat c.toNat ++ encode rest

end ItemClient.Http.Base64
