/-!
# Binary fractions

A finite binary64 number is a sign and a natural number times a power of two.
Text is made from these parts in exact arithmetic.
-/

namespace ListMode.Decimal

/-- The parts of a binary64 number. -/
inductive Parts where
  /-- The number `± mantissa · 2 ^ exponent`. -/
  | finite (negative : Bool) (mantissa : Nat) (exponent : Int)
  /-- An infinity. -/
  | infinite (negative : Bool)
  /-- No number. -/
  | nan
deriving DecidableEq, Repr

/-- The leading bit of a mantissa; a bit pattern leaves it out. -/
def leadingBit : Nat := 1 <<< 52

/-- The parts of the number with the given bit pattern. -/
def partsOfBits (bits : Nat) : Parts :=
  let negative := (bits >>> 63) % 2 == 1
  let biased := (bits >>> 52) % 2048
  let fraction := bits % leadingBit
  if biased = 2047 then if fraction = 0 then .infinite negative else .nan
  else if biased = 0 then .finite negative fraction (-1074)
  else .finite negative (leadingBit + fraction) ((biased : Int) - 1075)

/-- The parts of a number. -/
def parts (x : Float) : Parts := partsOfBits x.toBits.toNat

/-- A power of ten. -/
def tenTo (power : Nat) : Nat := Nat.pow 10 power

/-- The numerator of `mantissa · 2 ^ exponent · 10 ^ power`, as a fraction. -/
def numerator (mantissa : Nat) (exponent power : Int) : Nat :=
  mantissa <<< exponent.toNat * tenTo power.toNat

/-- The denominator that goes with `numerator`. -/
def denominator (exponent power : Int) : Nat := 1 <<< (-exponent).toNat * tenTo (-power).toNat

example : partsOfBits 0x3FF8000000000000 = .finite false (leadingBit + leadingBit / 2) (-52) := by decide
example : partsOfBits 0xFFF0000000000000 = .infinite true := by decide

end ListMode.Decimal
