/-!
# Double precision numbers

A binary64 number as the three fields of its interchange format. Nothing here touches the
machine's arithmetic: a value is an exact coefficient and power of two, comparison reads the
fields, and each operation computes exactly and rounds once.

Main definitions: `Binary64.same`, equality as arithmetic has it (a NaN equals nothing, the two
zeros are equal); `Binary64.ofRatio`, rounding to nearest with ties to even.
-/

namespace ItemClient

/-- A double: sign, biased exponent and fraction. -/
structure Binary64 where
  negative : Bool
  exponent : Nat
  fraction : Nat
  exponent_lt : exponent < 2048 := by decide
  fraction_lt : fraction < 0x10000000000000 := by decide
  deriving DecidableEq

namespace Binary64

/-- Zero of either sign. -/
def zero (negative : Bool) : Binary64 := { negative, exponent := 0, fraction := 0 }

def infinity (negative : Bool) : Binary64 := { negative, exponent := 2047, fraction := 0 }

def nan : Binary64 := { negative := false, exponent := 2047, fraction := 0x8000000000000 }

def isFinite (x : Binary64) : Bool := x.exponent < 2047

def isNaN (x : Binary64) : Bool := x.exponent = 2047 && x.fraction ≠ 0

def isZero (x : Binary64) : Bool := x.exponent = 0 && x.fraction = 0

/-- Equality of values: NaN equals nothing, and the two zeros are equal. -/
def same (x y : Binary64) : Bool :=
  !x.isNaN && !y.isNaN && ((x.isZero && y.isZero) || x = y)

/-- A finite double is `coefficient * 2 ^ power`, up to sign. -/
def coefficient (x : Binary64) : Nat :=
  if x.exponent = 0 then x.fraction else x.fraction + 0x10000000000000

def power (x : Binary64) : Int :=
  if x.exponent = 0 then -1074 else (x.exponent : Int) - 1075

/-- The same double with the sign turned round. -/
def negate (x : Binary64) : Binary64 := { x with negative := !x.negative }

/-- The quotient `num / den` to the nearest integer, a tie going to the even one. -/
def roundDiv (num den : Nat) : Nat :=
  let quotient := num / den
  let twice := 2 * (num % den)
  if twice < den then quotient
  else if den < twice then quotient + 1
  else if quotient % 2 = 0 then quotient else quotient + 1

/-- The number `num / den / 2 ^ power` as a quotient of two integers. -/
def scaled (num den : Nat) (power : Int) : Nat × Nat :=
  if 0 ≤ power then (num, den * Nat.pow 2 power.toNat) else (num * Nat.pow 2 (-power).toNat, den)

/-- The double with a given coefficient below `2 ^ 53` and power: infinite when the power is too
large, subnormal when the coefficient is short. -/
def pack (negative : Bool) (coefficient : Nat) (power : Int) : Binary64 :=
  if coefficient < 0x10000000000000 then
    { negative, exponent := 0, fraction := coefficient % 0x10000000000000,
      fraction_lt := Nat.mod_lt _ (by decide) }
  else if h : (power + 1075).toNat < 2047 then
    { negative, exponent := (power + 1075).toNat, fraction := coefficient % 0x10000000000000,
      exponent_lt := by omega, fraction_lt := Nat.mod_lt _ (by decide) }
  else infinity negative

/-- The double nearest to `num / den`, a tie going to the even coefficient. The power is the one
that leaves the coefficient 53 bits, but never below the subnormal one. -/
def ofRatio (negative : Bool) (num den : Nat) : Binary64 :=
  if num = 0 ∨ den = 0 then zero negative
  else
    let guess : Int := (num.log2 : Int) - den.log2 - 53
    let (n, d) := scaled num den guess
    let power := max (if n / d < 0x20000000000000 then guess else guess + 1) (-1074)
    let (n, d) := scaled num den power
    let rounded := roundDiv n d
    if rounded = 0x20000000000000 then pack negative 0x10000000000000 (power + 1)
    else pack negative rounded power

def ofNat (n : Nat) : Binary64 := ofRatio false n 1

def ofInt (n : Int) : Binary64 := ofRatio (n < 0) n.natAbs 1

/-- A finite double without its sign, as a quotient of two integers. -/
def ratio (x : Binary64) : Nat × Nat := scaled x.coefficient 1 (-x.power)

/-- The product of two finite doubles, rounded once. -/
def mul (x y : Binary64) : Binary64 :=
  let (a, b) := x.ratio
  let (c, d) := y.ratio
  ofRatio (x.negative != y.negative) (a * c) (b * d)

/-- The quotient of two finite doubles, the second not zero, rounded once. -/
def div (x y : Binary64) : Binary64 :=
  let (a, b) := x.ratio
  let (c, d) := y.ratio
  ofRatio (x.negative != y.negative) (a * d) (b * c)

/-- The double nearest to `digits * 10 ^ exponent`. Beyond the range of doubles the power of ten
is not computed: the answer is infinite or zero whatever the digits are. -/
def ofDecimal (negative : Bool) (digits : Nat) (exponent : Int) : Binary64 :=
  let length : Int := (Nat.toDigits 10 digits).length
  if digits = 0 ∨ length + exponent < -400 then zero negative
  else if 400 < length + exponent then infinity negative
  else if 0 ≤ exponent then ofRatio negative (digits * Nat.pow 10 exponent.toNat) 1
  else ofRatio negative digits (Nat.pow 10 (-exponent).toNat)

end Binary64

end ItemClient
