import ListMode.Coincidence.Event
import ListMode.Export.RunLength
import ListMode.Spectrum.Metadata
import ListMode.Spectrum.Transpose

/-!
# The counts of a spectrum

A spectrum counts in bins or in points, depending on its axes.  From outside
both are cells named by one number for each axis (`Counts.count`,
`Counts.entries`); a list of the wrong length names no cell.

A two-axis spectrum also remembers the cells that were touched since the last
range read, with their counts, when reads are buffered.
-/

namespace ListMode

/-- The counts of a spectrum. -/
inductive Counts where
  /-- The counts of the bins of one axis. -/
  | line (cells : Cells Bin)
  /-- The counts of the points of two axes, and of the points touched since the
  last range read. -/
  | plane (cells touched : Cells Point)
deriving DecidableEq

/-- A half-open range of numbers on an axis. -/
structure BinRange where
  /-- The first number of the range. -/
  start : Nat
  /-- The first number after the range. -/
  stop : Nat
deriving DecidableEq, Repr

/-- The range holds a number. -/
def BinRange.holds (r : BinRange) (b : Bin) : Bool := r.start ≤ b.toNat && b.toNat < r.stop

/-- Every range holds the number of its axis. -/
def holdsAll (bounds : List BinRange) (coords : List Bin) : Bool :=
  (List.zipWith BinRange.holds bounds coords).all id

namespace Counts

/-! ## Cells by their numbers -/

/-- No counts, on the given axes. -/
def zero : Axes → Counts
  | .one => .line ∅
  | .two => .plane ∅ ∅

/-- The axes of the counts. -/
def axes : Counts → Axes
  | .line _ => .one
  | .plane _ _ => .two

/-- The numbers of a point. -/
def coordinates (p : Point) : List Bin := [p.row, p.column]

/-- The count of a cell, zero when the numbers name no cell. -/
def count : Counts → List Bin → Nat
  | .line cells, [j] => cells.count j
  | .plane cells _, [i, j] => cells.count ⟨i, j⟩
  | _, _ => 0

/-- The stored cells with their counts, in ascending order. -/
def entries : Counts → List (List Bin × Nat)
  | .line cells => cells.entries.map fun e => ([e.1], e.2)
  | .plane cells _ => cells.entries.map fun e => (coordinates e.1, e.2)

/-- The cells touched since the last range read; one axis has no memory of
them. -/
def touchedEntries : Counts → List (List Bin × Nat)
  | .line _ => []
  | .plane _ touched => touched.entries.map fun e => (coordinates e.1, e.2)

/-- The sum of all counts, held at the largest count. -/
def total : Counts → Nat
  | .line cells => cells.total
  | .plane cells _ => cells.total

/-! ## Changing counts -/

/-- The counts with `n` more in a cell; with `buffered` the cell is touched. -/
def bump (buffered : Bool) (n : Nat) : Counts → List Bin → Counts
  | .line cells, [j] => .line (cells.bump j n)
  | .plane cells touched, [i, j] =>
    let cells := cells.bump ⟨i, j⟩ n
    .plane cells (if buffered then touched.set ⟨i, j⟩ (cells.count ⟨i, j⟩) else touched)
  | c, _ => c

/-- The counts with the memory of touched cells empty. -/
def forgetTouched : Counts → Counts
  | .line cells => .line cells
  | .plane cells _ => .plane cells ∅

/-! ## Events -/

/-- The number of an event on an axis: the first value of the hit on the axis
channel at the axis's resolution. -/
def axisBin? (event : Coincidence.Event) (channel bits : Nat) : Option Bin :=
  (event.hit? channel).map fun h => (h.value 0).rescale bits

/-- The cell an event is counted in.  With two axes a missing channel is counted
at zero; an event with no axis channel is not counted. -/
def cellOf? (axes : Axes) (m : Metadata) (event : Coincidence.Event) : Option (List Bin) :=
  let first := axisBin? event (m.axisChannels[0]?.getD 0) m.bits
  match axes with
  | .one => first.map fun j => [j]
  | .two =>
    let second := axisBin? event (m.axisChannels[1]?.getD 1) m.bits
    if first.isNone && second.isNone then none else some [first.getD 0, second.getD 0]

/-! ## Symmetry and text -/

/-- Exchanging rows and columns gives the same entries; one axis has no
symmetry. -/
def symmetric? : Counts → Option Bool
  | .line _ => none
  | .plane cells _ => some (cells.transpose.entries == cells.entries)

/-- A cell that is not stored differs from one that is stored with a zero. -/
theorem symmetric?_plane {cells touched : Cells Point} :
    symmetric? (.plane cells touched) = some true ↔ ∀ p, cells.get? p = cells.get? p.swap := by
  rw [← Cells.transpose_eq_self_iff, symmetric?, Option.some_inj, beq_iff_eq, Cells.entries_inj]

/-- The run-length text of the counts. -/
def toText : Counts → List Char
  | .line cells => RunLength.encode₁ cells
  | .plane cells _ => RunLength.encode₂ cells

/-- The counts of a run-length text on the given axes, and the largest number it
names. -/
def ofText (axes : Axes) (text : List Char) : Except TokenFault (Counts × Bin) :=
  match axes with
  | .one => (RunLength.decode₁ text).map fun (cells, m) => (.line cells, m)
  | .two => (RunLength.decode₂ text).map fun (cells, m) => (.plane cells ∅, m)

end Counts

end ListMode
