import ListMode.Text.Integer

/-!
# Reading decimal numbers

A number in a text is an optional sign and then digits with at most one decimal
point among or beside them, perhaps followed by an exponent; or one of the words
for infinity and for no number, in any case.  It is read as the nearest binary64
number.

However many digits there are, the first of them settle the rounding, together
with whether there is something behind them (`Significand`).
-/

namespace ListMode.Decimal

open Text (digit? digitsValue? le_of_digitsValue?)

/-! ## Digits -/

/-- The digits of a number, as far as they matter for rounding. -/
structure Significand where
  /-- The number that the first digits say. -/
  value : Nat := 0
  /-- How many digits stand behind those. -/
  dropped : Nat := 0
  /-- Some digit behind those is not zero. -/
  inexact : Bool := false

namespace Significand

/-- Digits are kept until the number they say has reached this.  A number halfway
between two binary64 numbers has at most 767 digits, so it is kept as a whole. -/
def keptLimit : Nat := Nat.pow 10 800

/-- One more digit. -/
def push (s : Significand) (d : Nat) : Significand :=
  if s.value < keptLimit then { s with value := s.value * 10 + d }
  else { s with dropped := s.dropped + 1, inexact := s.inexact || d != 0 }

/-- The digits of a text, read on from others. -/
def pushAll? (s : Significand) : List Char → Option Significand
  | [] => some s
  | c :: cs => do (s.push (← digit? c)).pushAll? cs

/-- Digits that say a number below the limit are all kept. -/
theorem pushAll?_eq {s : Significand} {cs : List Char} {n : Nat} (h : digitsValue? s.value cs = some n)
    (hn : n < keptLimit) : s.pushAll? cs = some { s with value := n } := by
  induction cs generalizing s with
  | nil =>
    obtain rfl : s.value = n := Option.some.inj h
    rfl
  | cons c cs ih =>
    obtain ⟨d, hd, h⟩ := Option.bind_eq_some_iff.1 h
    have hle := le_of_digitsValue? h
    have hpush : s.push d = { s with value := s.value * 10 + d } := if_pos (by omega)
    rw [pushAll?, hd]
    show (s.push d).pushAll? cs = _
    rw [hpush]
    exact ih h

/-- The nearest number to the digits times a power of ten.  What stands behind
the digits that were kept counts as one more digit.  A number that is out of every
range is not computed. -/
def nearest (s : Significand) (exponent : Int) : Float :=
  let digits := if s.inexact then s.value * 10 + 1 else s.value
  let exponent := exponent + s.dropped - if s.inexact then 1 else 0
  let magnitude := ((Nat.toDigits 10 digits).length : Int) + exponent
  if digits = 0 ∨ magnitude < -400 then 0.0
  else if 400 < magnitude then 1.0 / 0.0
  else if exponent < 0 then Float.ofScientific digits true (-exponent).toNat
  else Float.ofScientific digits false exponent.toNat

end Significand

/-! ## Numbers -/

/-- Splits off the ASCII digits at the front of a text. -/
def spanDigits (cs : List Char) : List Char × List Char := cs.span (·.isDigit)

/-- An exponent that has reached this is not read on: the digits behind it are
passed over. -/
def exponentLimit : Nat := 0x10000

/-- The number that the digits of an exponent say, read on from `n`. -/
def exponentValue? (n : Nat) : List Char → Option Nat
  | [] => some n
  | c :: cs => do
    let d ← digit? c
    exponentValue? (if n < exponentLimit then n * 10 + d else n) cs

theorem exponentValue?_eq {n m : Nat} {cs : List Char} (h : digitsValue? n cs = some m)
    (hm : m < exponentLimit) : exponentValue? n cs = some m := by
  induction cs generalizing n with
  | nil => exact h
  | cons c cs ih =>
    obtain ⟨d, hd, h⟩ := Option.bind_eq_some_iff.1 h
    have hle := le_of_digitsValue? h
    rw [exponentValue?, hd]
    show exponentValue? (if n < exponentLimit then n * 10 + d else n) cs = _
    rw [if_pos (by omega)]
    exact ih h

/-- The number an exponent says, which is the whole of the text after a number
or nothing. -/
def exponent? : List Char → Option Int
  | [] => some 0
  | e :: rest =>
    if e = 'e' ∨ e = 'E' then
      let (negative, ds) := match rest with
        | '-' :: ds => (true, ds)
        | '+' :: ds => (false, ds)
        | ds => (false, ds)
      if ds.isEmpty then none
      else (exponentValue? 0 ds).map fun n => if negative then -(n : Int) else n
    else none

/-- The number that digits with an optional point and an exponent say. -/
def unsignedDigits? (cs : List Char) : Option Float := do
  let (whole, rest) := spanDigits cs
  let (fraction, rest) := match rest with
    | '.' :: rest => spanDigits rest
    | rest => ([], rest)
  if whole.isEmpty && fraction.isEmpty then none
  let significand ← ({} : Significand).pushAll? (whole ++ fraction)
  let exponent ← exponent? rest
  return significand.nearest (exponent - fraction.length)

/-- The number that an unsigned text says. -/
def unsigned? (cs : List Char) : Option Float :=
  match String.ofList (cs.map Char.toLower) with
  | "inf" | "infinity" => some (1.0 / 0.0)
  | "nan" => some (0.0 / 0.0)
  | _ => unsignedDigits? cs

/-- The number that a text says. -/
def read? : List Char → Option Float
  | '-' :: cs => (unsigned? cs).map fun x => -x
  | '+' :: cs => unsigned? cs
  | cs => unsigned? cs

example : exponent? "e-0012".toList = some (-12) := by decide
example : exponent? "e655369".toList = some 65536 := by decide

end ListMode.Decimal
