import ListMode.Decimal.Binary

/-!
# The fewest digits that read back

Every binary64 number stands for an interval of real numbers that are rounded to
it, ends included when its mantissa is even.  A decimal number in the interval
reads back as the number, so the shortest text of a number is the decimal with
the fewest digits in it, and of those the nearest.

The search tries one digit, then two, and so on.  On the grid of decimals with a
given number of digits only the two neighbours of the number can be the nearest
in the interval, so two trials decide each grid.
-/

namespace ListMode.Decimal

/-- A positive decimal number `digits · 10 ^ power`. -/
structure Scientific where
  /-- The digits, as a number. -/
  digits : Nat
  /-- The power of ten of the last digit. -/
  power : Int
deriving DecidableEq, Repr

/-- The largest power of ten that is not above `num / den`, searched for
downwards from `start`. -/
def magnitudeFrom (num den : Nat) : (fuel : Nat) → (start : Int) → Int
  | 0, start => start
  | fuel + 1, start =>
    if tenTo start.toNat * den ≤ num * tenTo (-start).toNat then start
    else magnitudeFrom num den fuel (start - 1)

/-- The number of a grid that reads back as `mantissa · 2 ^ exponent`, when the
grid of multiples of `10 ^ power` has one. -/
def onGrid? (mantissa : Nat) (exponent power : Int) : Option Nat :=
  let lowStep := if mantissa = leadingBit ∧ -1074 < exponent then 1 else 2
  let unit := numerator 1 (exponent - 2) (-power)
  let den := denominator (exponent - 2) (-power)
  let value := 4 * mantissa * unit
  let low := (4 * mantissa - lowStep) * unit
  let high := (4 * mantissa + 2) * unit
  let closed := mantissa % 2 = 0
  let inside (c : Nat) : Bool :=
    (low < c * den || (closed && low == c * den)) && (c * den < high || (closed && c * den == high))
  let below := value / den
  let nearer := if 2 * value < (2 * below + 1) * den ∨
      (2 * value = (2 * below + 1) * den ∧ below % 2 = 0) then below else below + 1
  let further := if nearer = below then below + 1 else below
  if inside nearer then some nearer else if inside further then some further else none

/-- Tries ever finer grids; `count` is the number of digits of the next one. -/
def searchFrom (mantissa : Nat) (exponent magnitude : Int) : (fuel count : Nat) → Scientific
  | 0, count =>
    let power := magnitude - (count : Int) + 1
    ⟨numerator mantissa exponent (-power) / denominator exponent (-power), power⟩
  | fuel + 1, count =>
    let power := magnitude - (count : Int) + 1
    match onGrid? mantissa exponent power with
    | some digits => ⟨digits, power⟩
    | none => searchFrom mantissa exponent magnitude fuel (count + 1)

/-- The decimal with the fewest digits that reads back as the positive number
`mantissa · 2 ^ exponent`; seventeen digits always do. -/
def shortest (mantissa : Nat) (exponent : Int) : Scientific :=
  let magnitude := magnitudeFrom (numerator mantissa exponent 0) (denominator exponent 0) 640 309
  searchFrom mantissa exponent magnitude 17 1

example : shortest leadingBit (-52) = ⟨1, 0⟩ := by decide +kernel
example : shortest 0x1999999999999A (-56) = ⟨1, -1⟩ := by decide +kernel
example : shortest 1 (-1074) = ⟨5, -324⟩ := by decide +kernel

end ListMode.Decimal
