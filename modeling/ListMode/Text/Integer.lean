/-!
# Whole numbers in text

Counts and run lengths are written as decimal digits without leading zeros.
When read, a plus sign may stand in front and leading zeros are passed over,
but the number has to be in range.
-/

namespace ListMode.Text

/-- The number an ASCII digit stands for. -/
def digit? (c : Char) : Option Nat :=
  if '0' ≤ c ∧ c ≤ '9' then some (c.toNat - '0'.toNat) else none

/-- The number that digits say, read on from `n`. -/
def digitsValue? (n : Nat) : List Char → Option Nat
  | [] => some n
  | c :: cs => do digitsValue? (n * 10 + (← digit? c)) cs

/-- Reading on never makes a number smaller. -/
theorem le_of_digitsValue? {n m : Nat} {cs : List Char} (h : digitsValue? n cs = some m) : n ≤ m := by
  induction cs generalizing n with
  | nil => exact Nat.le_of_eq (Option.some.inj h)
  | cons c cs ih =>
    obtain ⟨d, _, h⟩ := Option.bind_eq_some_iff.1 h
    have := ih h
    omega

/-- The number below a limit that digits say, read on from `n`.  What is read is
held at the limit, so it stays small however many digits there are. -/
def digitsBelow? (limit n : Nat) : List Char → Option Nat
  | [] => if n < limit then some n else none
  | c :: cs => do digitsBelow? limit (min limit (n * 10 + (← digit? c))) cs

/-- Holding at the limit loses no number below it. -/
theorem digitsBelow?_eq (limit n : Nat) (cs : List Char) :
    digitsBelow? limit (min limit n) cs = (digitsValue? n cs).filter (· < limit) := by
  induction cs generalizing n with
  | nil =>
    have held : min limit n < limit ↔ n < limit := by omega
    by_cases h : n < limit
    · simp [digitsBelow?, digitsValue?, Option.filter, h, Nat.min_eq_right (Nat.le_of_lt h)]
    · simp [digitsBelow?, digitsValue?, Option.filter, held, h]
  | cons c cs ih =>
    rw [digitsBelow?, digitsValue?]
    cases hd : digit? c with
    | none => rfl
    | some d =>
      have held : min limit (min limit n * 10 + d) = min limit (n * 10 + d) := by omega
      exact (congrArg (digitsBelow? limit · cs) held).trans (ih (n * 10 + d))

/-- The natural number of at most so many bits that a token says. -/
def natural? (bits : Nat) (token : List Char) : Option Nat :=
  let ds := match token with
    | '+' :: ds => ds
    | ds => ds
  if ds.isEmpty then none else digitsBelow? (1 <<< bits) 0 ds

/-- The decimal digits of a number. -/
def decimal (n : Nat) : List Char := Nat.toDigits 10 n

example : natural? 8 "+007".toList = some 7 ∧ natural? 8 "256".toList = none := by decide
example : natural? 8 "-0".toList = none ∧ natural? 8 "+".toList = none := by decide

end ListMode.Text
