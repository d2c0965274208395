import ItemClient.Text.Letter

/-!
# Punycode

A label with characters beyond ASCII as ASCII letters and digits. The ASCII characters come
first; the others follow in ascending order, each as the difference to the one before, written
in digits of a base that changes from place to place. How it changes depends on a bias that is
adapted after each character.
-/

namespace ItemClient.Http.Punycode

def digit (n : Nat) : Char :=
  if n < 26 then Char.ofNat ('a'.toNat + n) else Char.ofNat ('0'.toNat + (n - 26))

def digitValue? (c : Char) : Option Nat :=
  if 'a' ≤ c ∧ c ≤ 'z' then some (c.toNat - 'a'.toNat)
  else if 'A' ≤ c ∧ c ≤ 'Z' then some (c.toNat - 'A'.toNat)
  else if '0' ≤ c ∧ c ≤ '9' then some (c.toNat - '0'.toNat + 26)
  else none

/-- The value from which on another digit follows, at the place `k`. -/
def threshold (k bias : Nat) : Nat := if k ≤ bias then 1 else min 26 (k - bias)

/-- Divide a difference until it is small, counting the places. -/
def settle : Nat → Nat → Nat → Nat
  | 0, k, delta => k + 36 * delta / (delta + 38)
  | fuel + 1, k, delta =>
      if 455 < delta then settle fuel (k + 36) (delta / 35) else k + 36 * delta / (delta + 38)

/-- The bias after a difference, with `count` characters so far. -/
def adapt (delta count : Nat) (first : Bool) : Nat :=
  let delta := if first then delta / 700 else delta / 2
  settle delta 0 (delta + delta / count)

/-- The digits of a difference, from the place `k` on. -/
def writeDelta (bias : Nat) : Nat → Nat → Nat → List Char
  | 0, _, q => [digit q]
  | fuel + 1, k, q =>
      let t := threshold k bias
      if q < t then [digit q]
      else digit (t + (q - t) % (36 - t)) :: writeDelta bias fuel (k + 36) ((q - t) / (36 - t))

/-- The state of writing: the difference since the last character that was written, the bias, and
how many characters are written. -/
structure Progress where
  delta : Nat
  bias : Nat
  count : Nat

/-- Go through a label for the sake of its characters with the code `n`. `basic` is the number of
ASCII characters. -/
def writePass (n basic : Nat) : List Char → Progress → List Char × Progress
  | [], p => ([], p)
  | c :: rest, p =>
      if c.toNat < n then writePass n basic rest { p with delta := p.delta + 1 }
      else if c.toNat = n then
        let digits := writeDelta p.bias p.delta 36 p.delta
        let bias := adapt p.delta (p.count + 1) (p.count = basic)
        let (tail, p) := writePass n basic rest { delta := 0, bias, count := p.count + 1 }
        (digits ++ tail, p)
      else writePass n basic rest p

/-- Go through a label once for each of the codes, which ascend; `n` is the least code that was
not treated yet. -/
def writeCodes (label : List Char) (basic : Nat) : List Nat → Nat → Progress → List Char
  | [], _, _ => []
  | code :: codes, n, p =>
      let p := { p with delta := p.delta + (code - n) * (p.count + 1) }
      let (digits, p) := writePass code basic label p
      digits ++ writeCodes label basic codes (code + 1) { p with delta := p.delta + 1 }

/-- Put a code in its place in an ascending list. -/
def place (n : Nat) : List Nat → List Nat
  | [] => [n]
  | m :: rest => if n < m then n :: m :: rest else if n = m then m :: rest else m :: place n rest

def encode (label : List Char) : List Char :=
  let basic := label.filter fun c => c.toNat < 0x80
  let codes := (label.filter fun c => 0x80 ≤ c.toNat).foldl (fun cs c => place c.toNat cs) []
  basic ++ (if basic = [] then [] else ['-']) ++
    writeCodes label basic.length codes 0x80 ⟨0, 72, basic.length⟩

/-- A difference, from the place `k` on, added to `i`, and what follows it. -/
def readDelta (bias : Nat) : List Char → Nat → Nat → Nat → Option (Nat × List Char)
  | [], _, _, _ => none
  | c :: rest, i, weight, k => do
      let d ← digitValue? c
      let i := i + d * weight
      let t := threshold k bias
      if d < t then some (i, rest) else readDelta bias rest i (weight * (36 - t)) (k + 36)

def charOf? (n : Nat) : Option Char := if n.isValidChar then some (Char.ofNat n) else none

/-- Read the characters beyond ASCII into a label, `n` being the code of the last one and `i` the
place after it. Each difference takes a digit, so the length of the text is fuel enough. -/
def readCodes : Nat → List Char → List Char → Nat → Nat → Nat → Option (List Char)
  | _, label, [], _, _, _ => some label
  | 0, _, _, _, _, _ => none
  | fuel + 1, label, input, n, i, bias => do
      let (j, rest) ← readDelta bias input i 1 36
      let size := label.length + 1
      let n := n + j / size
      let spot := j % size
      let c ← charOf? n
      readCodes fuel (label.take spot ++ [c] ++ label.drop spot) rest n (spot + 1)
        (adapt (j - i) size (i = 0))

/-- What stands before the last hyphen, and what stands after it. -/
def lastCut (cs : List Char) : List Char × List Char :=
  let tail := (cs.reverse.takeWhile (· ≠ '-')).reverse
  (cs.take (cs.length - tail.length - 1), tail)

def decode? (code : List Char) : Option (List Char) :=
  let (basic, tail) := lastCut code
  if basic.all fun c => c.toNat < 0x80 then readCodes tail.length basic tail 0x80 0 72 else none

end ItemClient.Http.Punycode
