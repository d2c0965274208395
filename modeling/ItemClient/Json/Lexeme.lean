import ItemClient.Json.Basic
import ItemClient.Text.Letter
import ItemClient.Text.Utf8

/-!
# Numbers and strings of a JSON text

The two lexemes whose form can be right while they have no value: a number that no double can
hold, and a string with bytes or escapes that spell no character. `takeNumber` and `takeString`
recognise the form and give the value as an option.

**Reading a decimal.** The digits are gathered into a coefficient of 64 bits and a power of ten.
Digits that no longer fit are dropped; the coefficient is then rounded to a double and multiplied
or divided by a power of ten that is itself a double. A long number may therefore be read as a
neighbour of the nearest double.
-/

namespace ItemClient.Json

open Text

/-- A coefficient under way, and the power of ten that goes with it. -/
structure Significand where
  coefficient : Nat
  exponent : Int

/-- The digits before the point: once one does not fit, it and those after it only count. -/
def gatherWhole : Nat → Nat → List Char → Significand
  | coefficient, dropped, [] => ⟨coefficient, dropped⟩
  | coefficient, dropped, d :: ds =>
      let next := 10 * coefficient + digitValue d
      if dropped = 0 ∧ next < 0x10000000000000000 then gatherWhole next 0 ds
      else gatherWhole coefficient (dropped + 1) ds

/-- The digits after the point: once one does not fit, it and those after it are dropped. -/
def gatherFraction (s : Significand) : List Char → Significand
  | [] => s
  | d :: ds =>
      let next := 10 * s.coefficient + digitValue d
      if next < 0x10000000000000000 then gatherFraction ⟨next, s.exponent - 1⟩ ds else s

def tenTo (n : Nat) : Binary64 := Binary64.ofNat (Nat.pow 10 n)

/-- Divide by powers of ten that a double can hold, the largest first. -/
def scaleDown : Nat → Binary64 → Nat → Binary64
  | 0, x, n => x.div (tenTo n)
  | steps + 1, x, n =>
      if n ≤ 308 then x.div (tenTo n)
      else if x.isZero then x
      else scaleDown steps (x.div (tenTo 308)) (n - 308)

/-- The double `x * 10 ^ exponent` without a sign, unless it is too large for a double. -/
def scale? (x : Binary64) (exponent : Int) : Option Binary64 :=
  if exponent < 0 then some (scaleDown ((-exponent).toNat / 308) x (-exponent).toNat)
  else if x.isZero then some x
  else if exponent ≤ 308 then
    let y := x.mul (tenTo exponent.toNat)
    if y.isFinite then some y else none
  else none

/-- The double that a significand and a written exponent stand for. An exponent beyond 31 bits
is not computed with: it makes zero, or a number too large. -/
def decimalValue? (negative : Bool) (s : Significand) (exponentNegative : Bool) (exponent : Nat) :
    Option Binary64 :=
  if 0x80000000 ≤ exponent then
    if s.coefficient ≠ 0 ∧ !exponentNegative then none else some (Binary64.zero negative)
  else
    let total := if exponentNegative then s.exponent - exponent else s.exponent + exponent
    (scale? (Binary64.ofNat s.coefficient) total).map fun x =>
      if negative then x.negate else x

/-- The value of a number without fraction and exponent: an integer where 64 bits hold it, and a
double otherwise. Minus zero is a double, the only form that keeps the sign. -/
def wholeValue? (negative : Bool) (digits : List Char) : Option Number :=
  let s := gatherWhole 0 0 digits
  let asFloat := (decimalValue? negative s false 0).bind Number.ofFloat?
  if s.exponent ≠ 0 then asFloat
  else if !negative then Number.ofInt? s.coefficient
  else if s.coefficient = 0 then asFloat
  else (Number.ofInt? (-(s.coefficient : Int))).or asFloat

def takeDigits : List Symbol → List Char × List Symbol
  | some c :: rest =>
      if c.isDigit then
        let (ds, rest) := takeDigits rest
        (c :: ds, rest)
      else ([], some c :: rest)
  | rest => ([], rest)

/-- The sign and digits of an exponent, after its `e`. -/
def takeExponent? : List Symbol → Option (Bool × List Char × List Symbol)
  | some '+' :: rest => digits false rest
  | some '-' :: rest => digits true rest
  | rest => digits false rest
where
  /-- At least one digit. -/
  digits (negative : Bool) (rest : List Symbol) : Option (Bool × List Char × List Symbol) :=
    match takeDigits rest with
    | ([], _) => none
    | (ds, rest) => some (negative, ds, rest)

/-- The digits after a point, when there is a point: then there must be some. -/
def takeFraction? : List Symbol → Option (List Char × List Symbol)
  | some '.' :: rest =>
      match takeDigits rest with
      | ([], _) => none
      | (ds, rest) => some (ds, rest)
  | rest => some ([], rest)

/-- A number without its sign. Only a lone zero may start with one. -/
def takeUnsigned (negative : Bool) (input : List Symbol) :
    Option (Option Number × List Symbol) :=
  match takeDigits input with
  | ([], _) => none
  | ('0' :: _ :: _, _) => none
  | (whole, rest) => do
      let (fraction, rest) ← takeFraction? rest
      let s := gatherFraction (gatherWhole 0 0 whole) fraction
      let float (exponentNegative : Bool) (exponent : Nat) : Option Number :=
        (decimalValue? negative s exponentNegative exponent).bind Number.ofFloat?
      match rest with
      | some 'e' :: tail | some 'E' :: tail =>
          let (exponentNegative, ds, tail) ← takeExponent? tail
          pure (float exponentNegative (decimalValue ds), tail)
      | rest =>
          pure (if fraction = [] then wholeValue? negative whole else float false 0, rest)

/-- A number: its value, if a double or 64 bits hold it, and what follows. -/
def takeNumber : List Symbol → Option (Option Number × List Symbol)
  | some '-' :: rest => takeUnsigned true rest
  | rest => takeUnsigned false rest

def hexUnit? (a b c d : Symbol) : Option Nat := do
  let a ← a.bind hexValue?
  let b ← b.bind hexValue?
  let c ← c.bind hexValue?
  let d ← d.bind hexValue?
  return 0x1000 * a + 0x100 * b + 0x10 * c + d

/-- The character of a letter after a backslash. -/
def escape? : Char → Option Char
  | '"' => some '"'
  | '\\' => some '\\'
  | '/' => some '/'
  | 'b' => some '\x08'
  | 'f' => some '\x0c'
  | 'n' => some '\n'
  | 'r' => some '\r'
  | 't' => some '\t'
  | _ => none

/-- Whether a 16-bit unit is the first of a pair. -/
def isHighUnit (n : Nat) : Bool := 0xD800 ≤ n && n < 0xDC00

/-- Whether a 16-bit unit is the second of a pair. -/
def isLowUnit (n : Nat) : Bool := 0xDC00 ≤ n && n < 0xE000

/-- Put a character in front of a string that is being taken, or note that it has none. -/
def prepend (c : Symbol) : Option (List Char) × List Symbol → Option (List Char) × List Symbol
  | (text, rest) => ((c.bind fun c => text.map (c :: ·)), rest)

/-- A string after its opening quote: its value, unless a gap or a half pair leaves it without
one, and what follows the closing quote. `high` is the first half of a pair that was read. -/
def takeString (high : Option Nat) : List Symbol → Option (Option (List Char) × List Symbol)
  | [] => none
  | some '"' :: rest => some (if high.isSome then none else some [], rest)
  | some '\\' :: some 'u' :: a :: b :: c :: d :: rest => do
      let n ← hexUnit? a b c d
      match high with
      | some h =>
          if isLowUnit n then
            let c := Char.ofNat (0x10000 + 0x400 * (h - 0xD800) + (n - 0xDC00))
            return prepend (some c) (← takeString none rest)
          else return prepend none (← takeString none rest)
      | none =>
          if isHighUnit n then takeString (some n) rest
          else if isLowUnit n then return prepend none (← takeString none rest)
          else return prepend (some (Char.ofNat n)) (← takeString none rest)
  | some '\\' :: some c :: rest => do
      let e ← escape? c
      return prepend (if high.isSome then none else some e) (← takeString none rest)
  | c :: rest =>
      if c.any (fun c => c.toNat < 0x20 || c == '\\') then none
      else do return prepend (if high.isSome then none else c) (← takeString none rest)

end ItemClient.Json
