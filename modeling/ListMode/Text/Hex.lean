/-!
# Hexadecimal words

A 16-bit word is shown as `0x` and four lower-case hexadecimal digits.
-/

namespace ListMode.Text

/-- The hexadecimal digit of a number below sixteen. -/
def hexDigit (n : Nat) : Char :=
  if n < 10 then Char.ofNat ('0'.toNat + n) else Char.ofNat ('a'.toNat + (n - 10))

/-- The lowest `width` hexadecimal digits of a number, highest first. -/
def hexDigits : (width : Nat) → Nat → List Char
  | 0, _ => []
  | width + 1, n => hexDigits width (n / 16) ++ [hexDigit (n % 16)]

/-- A word as four hexadecimal digits. -/
def hexWord (w : UInt16) : String := "0x" ++ String.ofList (hexDigits 4 w.toNat)

example : hexDigits 4 0x01FA = ['0', '1', 'f', 'a'] := by decide

end ListMode.Text
