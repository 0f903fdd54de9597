import ListMode.Spectrum.Cells
import ListMode.Word.Basic

/-!
# Dense grids

A two-axis spectrum as a square grid: every cell in turn, row by row, as a
little-endian count of two or four bytes and nothing else.  A grid therefore
has no header, and its side is known from its length.

A count that does not fit a cell is held at the largest one that does, and is
counted as saturated by the writer as it comes to the cell.  Points outside the
grid are left out.
-/

namespace ListMode

/-- The size of the cells of a grid. -/
inductive CellWidth where
  /-- Counts of two bytes. -/
  | two
  /-- Counts of four bytes. -/
  | four
deriving DecidableEq, Repr

/-- The largest side of a grid. -/
def maxGridSide : Nat := 4096

namespace CellWidth

/-- The number of bytes of a cell. -/
def bytes : CellWidth → Nat
  | .two => 2
  | .four => 4

/-- The largest count that fits a cell. -/
def limit (w : CellWidth) : Nat := 1 <<< (8 * w.bytes) - 1

/-- The side that covers a resolution, as far as grids go. -/
def gridSide (bits : Nat) : Nat := min (1 <<< min bits 16) maxGridSide

/-- The side written for a spectrum: narrow cells follow its resolution, wide
cells always cover the largest grid. -/
def exportSide : CellWidth → Nat → Nat
  | .two, bits => gridSide bits
  | .four, _ => maxGridSide

end CellWidth

/-- Why a byte string is no grid. -/
inductive GridFault where
  /-- The last cell is not whole. -/
  | partialCell (bytes cellBytes : Nat)
  /-- The cells do not fill a square with a usable side. -/
  | notSquare (cells : Nat)
deriving DecidableEq, Repr

/-- The words for a grid fault. -/
def GridFault.message : GridFault → String
  | .partialCell bytes cellBytes =>
    s!"invalid matrix file: {bytes} bytes is not a whole number of {cellBytes}-byte cells"
  | .notSquare cells =>
    s!"invalid matrix file: {cells} cells do not form a square power-of-two grid " ++
      s!"of side 2 to {maxGridSide}"

namespace Dense

/-! ## Writing -/

/-- A point lies in the grid of the given side. -/
def inGrid (side : Nat) (p : Point) : Bool := p.row.toNat < side && p.column.toNat < side

/-- The number of a point in the grid, counted row by row. -/
def place (side : Nat) (p : Point) : Nat := p.row.toNat * side + p.column.toNat

/-- A byte string of zeros, put together from halves. -/
def zeros (n : Nat) : ByteArray :=
  if n = 0 then .empty
  else
    let half := zeros (n / 2)
    if n % 2 = 0 then half ++ half else (half ++ half).push 0

/-- The bytes of a cell. -/
def cell (width : CellWidth) (count : Nat) : ByteArray :=
  ⟨(littleEndian width.bytes (min count width.limit)).toArray⟩

/-- Writes the populated cells of a grid of `size` cells behind the `written`
cells already in `out`, with zeros between and after them, and counts those that
do not fit on from `large`. -/
def writeFrom (width : CellWidth) (side size : Nat) (out : ByteArray) (written large : Nat) :
    List (Point × Nat) → ByteArray × Nat
  | [] => (out ++ zeros ((size - written) * width.bytes), large)
  | (p, n) :: rest =>
    let gap := zeros ((place side p - written) * width.bytes)
    writeFrom width side size (out ++ gap ++ cell width n) (place side p + 1)
      (if width.limit < n then large + 1 else large) rest

/-- The entries that lie in the grid. -/
def visible (side : Nat) (cells : Cells Point) : List (Point × Nat) :=
  cells.entries.filter fun e => inGrid side e.1

/-- The grid of a two-axis spectrum, and the number of its cells whose count does
not fit. -/
def writeCounting (cells : Cells Point) (side : Nat) (width : CellWidth) : ByteArray × Nat :=
  writeFrom width side (side * side) .empty 0 0 (visible side cells)

/-- The grid of a two-axis spectrum. -/
def write (cells : Cells Point) (side : Nat) (width : CellWidth) : ByteArray :=
  (writeCounting cells side width).1

/-- The number of cells in the grid whose count does not fit, as the writer counts
them. -/
def saturated (cells : Cells Point) (side : Nat) (width : CellWidth) : Nat :=
  (writeCounting cells side width).2

/-! ## Reading -/

/-- The sides a grid may have. -/
def sides : List Nat := (List.range 12).map fun k => 1 <<< (k + 1)

/-- The side of a grid with the given number of cells. -/
def side? (cells : Nat) : Option Nat := sides.find? fun s => s * s == cells

/-- A byte, zero past the end. -/
def byteAt (bytes : ByteArray) (i : Nat) : Nat := if h : i < bytes.size then bytes[i].toNat else 0

/-- The count of the cell with the given number. -/
def countAt (bytes : ByteArray) (width : CellWidth) (i : Nat) : Nat :=
  match width with
  | .two => byteAt bytes (2 * i) + 256 * byteAt bytes (2 * i + 1)
  | .four =>
    byteAt bytes (4 * i) + 256 * (byteAt bytes (4 * i + 1) +
      256 * (byteAt bytes (4 * i + 2) + 256 * byteAt bytes (4 * i + 3)))

/-- The point with the given number in the grid. -/
def pointAt (side i : Nat) : Point := ⟨UInt16.ofNat (i / side), UInt16.ofNat (i % side)⟩

/-- The populated cells with a number below `n`, in front of `later`. -/
def populatedBelow (bytes : ByteArray) (width : CellWidth) (side : Nat) :
    (n : Nat) → (later : List (Point × Nat)) → List (Point × Nat)
  | 0, later => later
  | n + 1, later =>
    let count := countAt bytes width n
    populatedBelow bytes width side n
      (if count = 0 then later else (pointAt side n, count) :: later)

/-- Reads a grid: its populated cells and its side. -/
def read (bytes : ByteArray) (width : CellWidth) : Except GridFault (Cells Point × Nat) :=
  if bytes.size % width.bytes ≠ 0 then .error (.partialCell bytes.size width.bytes)
  else
    let cells := bytes.size / width.bytes
    match side? cells with
    | none => .error (.notSquare cells)
    | some side => .ok (Cells.ofEntries (populatedBelow bytes width side cells []), side)

example : sides.getLast? = some maxGridSide := by decide
example : side? 16 = some 4 ∧ side? 12 = none ∧ side? 1 = none := by decide

end Dense

end ListMode
