import ListMode.Spill

/-!
# Dates

A moment is written as its date and its time of day in the Gregorian calendar,
at longitude zero.  Days are counted from the first of March of the year zero,
so that a leap day is the last day of its year: then 400 years have 146097 days,
and the days of a year fall into months by a straight line.
-/

namespace ListMode.Text

/-- A day of the calendar. -/
structure Date where
  /-- The year. -/
  year : Int
  /-- The month, one to twelve. -/
  month : Nat
  /-- The day of the month, from one. -/
  day : Nat
deriving DecidableEq, Repr

/-- The days from the first of March of the year zero to the first of January
1970. -/
def epochDay : Int := 719468

/-- The date of the day that comes a number of days after the first of January
1970. -/
def Date.ofDay (day : Int) : Date :=
  let shifted := day + epochDay
  let era := shifted.fdiv 146097
  let dayOfEra := (shifted.fmod 146097).toNat
  let yearOfEra := (dayOfEra - dayOfEra / 1460 + dayOfEra / 36524 - dayOfEra / 146096) / 365
  let dayOfYear := dayOfEra - (365 * yearOfEra + yearOfEra / 4 - yearOfEra / 100)
  let month := (5 * dayOfYear + 2) / 153
  { year := era * 400 + yearOfEra + (if month < 10 then 0 else 1)
    month := if month < 10 then month + 3 else month - 9
    day := dayOfYear - (153 * month + 2) / 5 + 1 }

/-- A number with at least as many digits as given. -/
def zeroPadded (width n : Nat) : String :=
  let digits := Nat.toDigits 10 n
  String.ofList (List.replicate (width - digits.length) '0' ++ digits)

/-- A moment as date and time of day. -/
def moment (t : Instant) : String :=
  let date := Date.ofDay (t.fdiv 86400)
  let second := (t.fmod 86400).toNat
  let year := if date.year < 0 then "-" ++ zeroPadded 4 date.year.natAbs else
    zeroPadded 4 date.year.natAbs
  s!"{year}-{zeroPadded 2 date.month}-{zeroPadded 2 date.day}T" ++
    s!"{zeroPadded 2 (second / 3600)}:{zeroPadded 2 (second / 60 % 60)}:{zeroPadded 2 (second % 60)}Z"

example : Date.ofDay 0 = ⟨1970, 1, 1⟩ ∧ Date.ofDay 19782 = ⟨2024, 2, 29⟩ := by decide
example : Date.ofDay (-1) = ⟨1969, 12, 31⟩ ∧ Date.ofDay 11016 = ⟨2000, 2, 29⟩ := by decide

end ListMode.Text
