import ItemClient.Number.Binary64

/-!
# Shortest decimals

The decimal that a double is written as: of the decimals that read back as the double, one with
the fewest digits, and of those the nearest, a tie going to the even digit. The reals that read
back as `x` form the interval `Interval.around x`, ends included when the coefficient is even.
On each decimal grid only the two neighbours of `x` need a test, since a grid that meets the
interval at all meets it at one of them.
-/

namespace ItemClient

/-- The number `digits * 10 ^ exponent`. -/
structure Decimal where
  digits : Nat
  exponent : Int
  deriving DecidableEq

/-- The reals that round to a double, over one denominator. -/
structure Interval where
  /-- Numerator of the least one. -/
  low : Nat
  /-- Numerator of the double itself. -/
  middle : Nat
  /-- Numerator of the greatest one. -/
  high : Nat
  /-- The common denominator. -/
  den : Nat
  /-- Whether the ends belong to it. -/
  closed : Bool

namespace Interval

/-- Half a unit in the last place to either side; only a quarter below a power of two. -/
def around (x : Binary64) : Interval :=
  let c := x.coefficient
  let below := if x.fraction = 0 ∧ 1 < x.exponent then 1 else 2
  let power := x.power - 2
  let (up, down) := if 0 ≤ power then (Nat.pow 2 power.toNat, 1) else (1, Nat.pow 2 (-power).toNat)
  { low := (4 * c - below) * up, middle := 4 * c * up, high := (4 * c + 2) * up,
    den := down, closed := c % 2 = 0 }

/-- Whether `num / den'` lies in the interval. -/
def holds (i : Interval) (num den' : Nat) : Bool :=
  if i.closed then i.low * den' ≤ num * i.den && num * i.den ≤ i.high * den'
  else i.low * den' < num * i.den && num * i.den < i.high * den'

/-- The number of places before the point: `10 ^ (places - 1) ≤ middle / den < 10 ^ places`. -/
def places (i : Interval) : Int :=
  if i.den ≤ i.middle then ((Nat.toDigits 10 (i.middle / i.den)).length : Int)
  else
    let k := (Nat.toDigits 10 (i.den / i.middle)).length
    if i.middle * Nat.pow 10 (k - 1) = i.den then 2 - (k : Int) else 1 - (k : Int)

/-- The number `n * 10 ^ exponent` as a quotient of two integers. -/
def tens (n : Nat) (exponent : Int) : Nat × Nat :=
  if 0 ≤ exponent then (n * Nat.pow 10 exponent.toNat, 1) else (n, Nat.pow 10 (-exponent).toNat)

/-- The neighbour of the middle on the grid of multiples of `10 ^ exponent` that lies in the
interval, the nearer of the two when both do. -/
def onGrid? (i : Interval) (exponent : Int) : Option Decimal :=
  let (u, v) := tens 1 exponent
  let floor := i.middle * v / (i.den * u)
  let rest := 2 * (i.middle * v % (i.den * u))
  let hits (n : Nat) : Bool := let (a, b) := tens n exponent; i.holds a b
  let downFirst := rest < i.den * u ∨ (rest = i.den * u ∧ floor % 2 = 0)
  match hits floor, hits (floor + 1) with
  | true, true => some ⟨if downFirst then floor else floor + 1, exponent⟩
  | true, false => some ⟨floor, exponent⟩
  | false, true => some ⟨floor + 1, exponent⟩
  | false, false => none

end Interval

/-- The shortest decimal of a finite double that is not zero. Seventeen digits always read
back, so the search ends there. -/
def Binary64.shortest (x : Binary64) : Decimal :=
  let i := Interval.around x
  let places := i.places
  ((List.range 17).findSome? fun (n : Nat) => i.onGrid? (places - (n + 1))).getD
    ⟨i.middle / i.den, 0⟩

end ItemClient
