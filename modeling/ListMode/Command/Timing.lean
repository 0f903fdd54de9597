import ListMode.Command.Report
import ListMode.Text.Date

/-!
# Times in reports

How a report writes the times of a run: what the work took with two decimals in
the largest unit that it fills, or in seconds, and moments as dates.
-/

namespace ListMode.Command

/-- The whole of a time in nanoseconds with two decimals in a unit of so many
nanoseconds. -/
def inUnit (nanoseconds unit : Nat) : String :=
  String.ofList (Decimal.placed 2 (Decimal.roundDiv (nanoseconds * 100) unit))

/-- A time in nanoseconds with the largest unit that it fills. -/
def takenText (nanoseconds : Nat) : String :=
  if 1000000000 ≤ nanoseconds then inUnit nanoseconds 1000000000 ++ "s"
  else if 1000000 ≤ nanoseconds then inUnit nanoseconds 1000000 ++ "ms"
  else if 1000 ≤ nanoseconds then inUnit nanoseconds 1000 ++ "µs"
  else inUnit nanoseconds 1 ++ "ns"

/-- The texts for a run that took a number of nanoseconds. -/
def TimeTexts.ofNanoseconds (nanoseconds : Nat) : TimeTexts where
  taken := takenText nanoseconds
  seconds := inUnit nanoseconds 1000000000
  moment := Text.moment

example : takenText 1234567 = "1.23ms" ∧ takenText 999 = "999.00ns" := by decide +kernel

end ListMode.Command
