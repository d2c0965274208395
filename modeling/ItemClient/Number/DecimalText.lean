import ItemClient.Number.Shortest
import ItemClient.Text.Quoted

/-!
# Doubles as text

How the digits of a double are laid out. Within a band of exponents the number is positional and
always keeps a fraction, so that it still reads as a double; outside the band it is scientific,
with a sign on every exponent.
-/

namespace ItemClient

/-- The band of decimal exponents that are written positionally. -/
structure PositionalBand where
  least : Int
  greatest : Int

/-- Numbers from `0.00001` up to `9999999999999999.0` are positional. -/
def PositionalBand.standard : PositionalBand := ⟨-5, 15⟩

namespace Decimal

/-- Digits without trailing zeros, and the exponent of the first of them. -/
def scientific (d : Decimal) : List Char × Int :=
  let digits := Nat.toDigits 10 d.digits
  (Text.dropTrailingZeros digits, d.exponent + digits.length - 1)

/-- Digits around a decimal point, `exponent` being the place of the first. -/
def positional (digits : List Char) (exponent : Int) : List Char :=
  if exponent < 0 then
    ['0', '.'] ++ List.replicate ((-exponent).toNat - 1) '0' ++ digits
  else
    let whole := exponent.toNat + 1
    let before := digits.take whole
    let after := digits.drop whole
    before ++ List.replicate (whole - before.length) '0' ++ ['.'] ++
      (if after = [] then ['0'] else after)

/-- Digits with a point after the first, and the exponent with its sign. -/
def exponential (digits : List Char) (exponent : Int) : List Char :=
  let tail := digits.drop 1
  digits.take 1 ++ (if tail = [] then [] else '.' :: tail) ++ ['e'] ++
    [if exponent < 0 then '-' else '+'] ++ Nat.toDigits 10 exponent.natAbs

def text (band : PositionalBand) (d : Decimal) : List Char :=
  let (digits, exponent) := d.scientific
  if band.least ≤ exponent ∧ exponent ≤ band.greatest then positional digits exponent
  else exponential digits exponent

end Decimal

def Binary64.text (x : Binary64) : List Char :=
  (if x.negative then ['-'] else []) ++
    if x.isZero then ['0', '.', '0'] else x.shortest.text .standard

end ItemClient
