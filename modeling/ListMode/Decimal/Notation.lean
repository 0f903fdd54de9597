import ListMode.Decimal.Fixed
import ListMode.Decimal.Shortest

/-!
# Notation of numbers

How the shortest digits of a number are laid out in a JSON text: positionally
with at least one decimal while the first digit stands in place -5 to 16,
otherwise with an exponent, which always has a sign.  A number that is none is
written as `null`.
-/

namespace ListMode.Decimal

/-- The digits without trailing zeros, and how many zeros there were. -/
def dropZeros (digits : List Char) : List Char × Nat :=
  let kept := (digits.reverse.dropWhile (· = '0')).reverse
  (kept, digits.length - kept.length)

/-- Lays out a positive decimal number.  `point` is the place of the decimal
point counted from the first digit. -/
def layout (s : Scientific) : List Char :=
  let (digits, zeros) := dropZeros (Nat.toDigits 10 s.digits)
  let point : Int := (digits.length : Int) + zeros + s.power
  if digits.length ≤ point ∧ point ≤ 16 then
    digits ++ List.replicate (point.toNat - digits.length) '0' ++ ".0".toList
  else if 0 < point ∧ point ≤ 16 then
    digits.take point.toNat ++ '.' :: digits.drop point.toNat
  else if -5 < point ∧ point ≤ 0 then
    "0.".toList ++ List.replicate (-point).toNat '0' ++ digits
  else
    let exponent := 'e' :: (if point < 1 then '-' else '+') :: Nat.toDigits 10 (point - 1).natAbs
    match digits with
    | d :: e :: rest => d :: '.' :: e :: rest ++ exponent
    | _ => digits ++ exponent

/-- A number as it stands in a JSON text. -/
def json (x : Float) : List Char :=
  match parts x with
  | .nan | .infinite _ => "null".toList
  | .finite negative 0 _ => signed negative "0.0".toList
  | .finite negative mantissa exponent => signed negative (layout (shortest mantissa exponent))

example : layout ⟨125, -2⟩ = "1.25".toList ∧ layout ⟨5, 0⟩ = "5.0".toList := by decide
example : layout ⟨12, 20⟩ = "1.2e+21".toList ∧ layout ⟨7, -3⟩ = "0.007".toList := by decide
example : layout ⟨7, -7⟩ = "7e-7".toList := by decide

end ListMode.Decimal
