import ListMode.Spectrum.Cells

/-!
# Plotting scripts

A two-axis spectrum as a script that assigns every stored cell and plots the
logarithm of the counts.  Scripts count rows and columns from one.
-/

namespace ListMode.Script

/-- The line that assigns a cell. -/
def assignment (e : Point × Nat) : String :=
  s!"coinc({e.1.row.toNat + 1}, {e.1.column.toNat + 1}) = {e.2};"

/-- The lines of the script of a spectrum. -/
def lines (cells : Cells Point) (bits total : Nat) : List String :=
  ["%=========specdaq 2d spectrum=========",
    s!"%  Bit precision: {bits}",
    s!"%  Total events : {total}",
    "clear;"] ++
  cells.entries.map assignment ++
  ["figure;", "imagesc(log(coinc));", "colormap(hot);"]

/-- The text of the script of a spectrum. -/
def write (cells : Cells Point) (bits total : Nat) : String :=
  String.join ((lines cells bits total).map (· ++ "\n"))

end ListMode.Script
