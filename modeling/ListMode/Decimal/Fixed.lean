import ListMode.Decimal.Binary

/-!
# A fixed number of places

Times and sizes are written with a fixed number of decimals.  The exact value of
the number is rounded to the nearest multiple of the last place, a tie to the
even neighbour, and the sign is kept even when nothing else is left of it.
-/

namespace ListMode.Decimal

/-- The quotient of two numbers rounded to the nearest whole number, a tie to
the even neighbour. -/
def roundDiv (num den : Nat) : Nat :=
  let quotient := num / den
  let twice := 2 * (num % den)
  if twice < den ∨ (twice = den ∧ quotient % 2 = 0) then quotient else quotient + 1

/-- The digits of `n` units of the last of `places` decimals. -/
def placed (places n : Nat) : List Char :=
  let digits := Nat.toDigits 10 n
  if places = 0 then digits
  else
    let padded := List.replicate (places + 1 - digits.length) '0' ++ digits
    padded.take (padded.length - places) ++ '.' :: padded.drop (padded.length - places)

/-- A sign in front of a text. -/
def signed (negative : Bool) (text : List Char) : List Char :=
  if negative then '-' :: text else text

/-- A number with a fixed number of decimals. -/
def fixed (places : Nat) (x : Float) : List Char :=
  match parts x with
  | .nan => "NaN".toList
  | .infinite negative => signed negative "inf".toList
  | .finite negative mantissa exponent =>
    signed negative (placed places
      (roundDiv (numerator mantissa exponent places) (denominator exponent places)))

example : roundDiv 5 2 = 2 ∧ roundDiv 7 2 = 4 ∧ roundDiv 8 3 = 3 := by decide
example : placed 2 5 = "0.05".toList ∧ placed 0 12 = "12".toList := by decide

end ListMode.Decimal
