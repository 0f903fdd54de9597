import ListMode.Export.Dense
import ListMode.Export.Listing
import ListMode.Export.Script
import ListMode.Spectrum.Basic

/-!
# Spectra as files

A spectrum with one axis is kept as a listing, one with two axes as a grid of
either cell width; it can also be written, but not read, as a plotting script.
A file is named by its format's name.

A spectrum that was read describes itself by its file: its name, resolution and
totals come from there, and its detectors are called unknown.  Its total is the sum
of the counts in the file, which is followed below 2^64 (`Metadata.total`).
-/

namespace ListMode

/-- The formats of spectrum files. -/
inductive FileFormat where
  /-- A plotting script. -/
  | script
  /-- A grid. -/
  | grid (width : CellWidth)
  /-- A listing. -/
  | listing
deriving DecidableEq, Repr

namespace FileFormat

/-- The format of a name. -/
def ofName? : String → Option FileFormat
  | "m" => some .script
  | "m4b" => some (.grid .four)
  | "mat" => some (.grid .two)
  | "tka" => some .listing
  | _ => none

/-- The cell width of a grid format. -/
def cellWidth? (name : String) : Option CellWidth :=
  match ofName? name with
  | some (.grid width) => some width
  | _ => none

/-- The names of the formats that spectra with the given number of axes are
written in. -/
def outputs : Nat → List String
  | 1 => ["tka"]
  | 2 => ["m", "m4b", "mat"]
  | _ => []

/-- The axes of the spectra that a format is read as. -/
def readAs? : FileFormat → Option Axes
  | .script => none
  | .grid _ => some .two
  | .listing => some .one

end FileFormat

namespace Spectrum

/-! ## Writing -/

/-- The time of the axis channel in a table of times. -/
def axisTime (m : Metadata) (table : List (SourceId × Float)) : Float :=
  let channel := m.axisChannels[0]?.getD 0
  let source : SourceId := if channel < 32768 then Int16.ofNat channel else -1
  ((findByKey? (·.1.toInt) source.toInt table).map (·.2)).getD 0.0

/-- The listing of the bins of a one-axis spectrum. -/
def listing (m : Metadata) (cells : Cells Bin) : Listing where
  liveTime := axisTime m m.liveTimes
  realTime := axisTime m m.realTimes
  cells := cells
  lastBin := m.maxBin

/-- The contents of the spectrum's file of a format, nothing for a format it is
not written in. -/
def fileContents? (s : Spectrum) (format : String) : Option ByteArray :=
  match s.counts, FileFormat.ofName? format with
  | .line cells, some .listing => some (listing s.metadata cells).write.toUTF8
  | .plane cells _, some .script =>
    some (Script.write cells s.metadata.bits s.metadata.total).toUTF8
  | .plane cells _, some (.grid width) =>
    some (Dense.write cells (width.exportSide s.metadata.bits) width)
  | _, _ => none

/-- The name of the spectrum's file of a format. -/
def fileName (s : Spectrum) (format : String) : String := s.metadata.name ++ "." ++ format

/-- Writes the spectrum's file of a format into a folder.  Gives nothing for a
format the spectrum is not written in, and then does not look at the folder. -/
def writeFile (s : Spectrum) (f : Folder) (dir : FolderPath) (format : String) :
    Except FolderFault (Option Folder) :=
  match s.fileContents? format with
  | some contents => (f.write (Folder.within dir (s.fileName format)) contents).map some
  | none => .ok none

/-! ## Reading -/

/-- The name of a spectrum read from a file. -/
def nameOfFile (fileName : String) : String :=
  String.ofList (fileName.toList.map fun c => if c = '.' then '_' else c)

/-- A detector that only has a name and the identity calibration. -/
def unknownDetector (name : String) (bits : Nat) : Detector :=
  Detector.addCalibration { name } (.identity "Energy" bits)

/-- The metadata of a spectrum read from a listing. -/
def listingMetadata (m : Metadata) (fileName : String) (l : Listing) : Metadata :=
  let bits := l.lastBin.toNat.log2 + 1
  { m with
    name := nameOfFile fileName
    kind := some .one
    dimensions := 1
    bits
    add := .ofList [true]
    coincidence := .ofList [true]
    anticoincidence := .ofList [false]
    detectors := [unknownDetector "unknown" bits]
    total := l.cells.sum
    maxBin := l.lastBin
    liveTimes := [(0, l.liveTime)]
    realTimes := [(0, l.realTime)]
    changed := true }

/-- The metadata of a spectrum read from a grid. -/
def gridMetadata (m : Metadata) (fileName : String) (cells : Cells Point) (side : Nat) : Metadata :=
  let bits := side.log2
  let symmetric := (Counts.plane cells ∅).symmetric?
  let second := if symmetric = some true then "unknown1" else "unknown2"
  { m with
    name := nameOfFile fileName
    kind := some .two
    dimensions := 2
    bits
    add := .ofList [true, true]
    coincidence := .ofList [true, true]
    anticoincidence := .ofList [false, false]
    detectors := [unknownDetector "unknown1" bits, unknownDetector second bits]
    total := cells.sum
    maxBin := UInt16.ofNat (side - 1)
    symmetric
    liveTimes := []
    realTimes := []
    startTime := none
    changed := true }

/-- The spectrum with its counts and metadata replaced, with no open events. -/
def replaced (counts : Counts) (m : Metadata) : Spectrum where
  metadata := m
  counts
  builder := .ofWindow m.window
  ready := true

/-- Reads a file into the spectrum.  Gives nothing for a format the spectrum
cannot be read from, and then does not look at the file. -/
def load (s : Spectrum) (fileName format : String) (contents : Except FolderFault ByteArray) :
    Except SpectrumFault (Option Spectrum) :=
  match s.axes, FileFormat.ofName? format with
  | .one, some .listing =>
    match contents with
    | .error fault => .error (.file fault)
    | .ok bytes =>
      match Listing.read bytes.data.toList with
      | .error (.token fault) => .error (.token fault)
      | .error .notText => .error .notText
      | .ok l => .ok (some (replaced (.line l.cells) (listingMetadata s.metadata fileName l)))
  | .two, some (.grid width) =>
    match contents with
    | .error fault => .error (.file fault)
    | .ok bytes =>
      match Dense.read bytes width with
      | .error fault => .error (.grid fault)
      | .ok (cells, side) =>
        .ok (some (replaced (.plane cells ∅) (gridMetadata s.metadata fileName cells side)))
  | _, _ => .ok none

/-- The spectrum in a file.  Gives nothing for a format that is not read. -/
def ofFile (fileName format : String) (contents : Except FolderFault ByteArray) :
    Except SpectrumFault (Option Spectrum) :=
  match (FileFormat.ofName? format).bind FileFormat.readAs? with
  | some axes => (blank axes).load fileName format contents
  | none => .ok none

end Spectrum

end ListMode
