import ListMode.Coincidence.Builder
import ListMode.Export.Dense
import ListMode.Folder
import ListMode.Spectrum.Counts

/-!
# Spectra

A spectrum is filled from spills: the hits on its channels are grouped into
coincidence events, and every event that passes its gates and holds an axis
channel is counted in one cell.  Events are counted when they are closed, so a
spectrum is only up to date after a flush.

Every operation gives the whole spectrum after it.  An operation that fails
gives only the fault, so a fault never leaves a changed spectrum behind.
-/

namespace ListMode

/-- Why an operation on a spectrum failed. -/
inductive SpectrumFault where
  /-- There is no spectrum with this number of axes, or not this one. -/
  | dimensions (n : Nat)
  /-- The resolution is not usable. -/
  | bits (n : Nat)
  /-- The gates do not open one channel for each axis. -/
  | channels (expected found : Nat)
  /-- A text does not hold counts. -/
  | token (fault : TokenFault)
  /-- A file does not hold a grid. -/
  | grid (fault : GridFault)
  /-- A file does not hold text. -/
  | notText
  /-- A file cannot be read or written. -/
  | file (fault : FolderFault)
deriving DecidableEq, Repr

/-- The words for a fault. -/
def SpectrumFault.message : SpectrumFault → String
  | .dimensions n => s!"unsupported histogram dimensionality: {n}"
  | .bits n => s!"invalid bit resolution: {n} (must be 1..=16)"
  | .channels expected found => s!"add pattern selects {found} channels, {expected} required"
  | .token fault => fault.message
  | .grid fault => fault.message
  | .notText => "I/O error: stream did not contain valid UTF-8"
  | .file fault => fault.message

/-- A spectrum. -/
structure Spectrum where
  /-- What is known beside the counts. -/
  metadata : Metadata
  /-- The counts. -/
  counts : Counts
  /-- The grouping of the hits pushed so far. -/
  builder : Coincidence.Builder
  /-- The spectrum was set up or read, and takes spills. -/
  ready : Bool

namespace Spectrum

/-! ## Setting up -/

/-- The axes of a spectrum. -/
def axes (s : Spectrum) : Axes := s.counts.axes

/-- The spectrum that is not set up yet. -/
def blank (axes : Axes) : Spectrum where
  metadata := { name := "", kind := some axes, dimensions := axes.dimensions }
  counts := .zero axes
  builder := default
  ready := false

/-- Why metadata cannot set up a spectrum with the given axes. -/
def setupFault? (axes : Axes) (m : Metadata) : Option SpectrumFault :=
  if m.dimensions ≠ axes.dimensions then some (.dimensions m.dimensions)
  else if ¬ UsableWidth m.bits then some (.bits m.bits)
  else if m.add.count ≠ axes.dimensions then some (.channels axes.dimensions m.add.count)
  else none

/-- Sets a spectrum up with no counts.  The running totals that come with the
metadata are kept. -/
def setUp (axes : Axes) (m : Metadata) : Except SpectrumFault Spectrum :=
  match setupFault? axes m with
  | some fault => .error fault
  | none =>
    .ok
      { metadata :=
          { m with
            kind := some axes
            detectors := Metadata.resizeDetectors axes.dimensions m.detectors }
        counts := .zero axes
        builder := .ofWindow m.window
        ready := true }

/-- Sets up a spectrum with the axes its metadata asks for. -/
def create (m : Metadata) : Except SpectrumFault Spectrum :=
  match Axes.ofDimensions? m.dimensions with
  | some axes => setUp axes m
  | none => .error (.dimensions m.dimensions)

/-! ## Counting -/

/-- Adds `n` to a cell and keeps the largest number met. -/
def bump (s : Spectrum) (coords : List Bin) (n : Nat) : Spectrum :=
  { s with
    counts := s.counts.bump s.metadata.buffered n coords
    metadata := { s.metadata with maxBin := coords.foldl max s.metadata.maxBin } }

/-- Adds `n` to a cell and to the total.  A cell stays at the largest count it
holds; the total goes on (see `Metadata.total`). -/
def add (s : Spectrum) (coords : List Bin) (n : Nat) : Spectrum :=
  let s := s.bump coords n
  { s with metadata := { s.metadata with total := s.metadata.total + n, changed := true } }

/-- Counts an event, when it passes the gates and holds an axis channel. -/
def countEvent (s : Spectrum) (e : Coincidence.Event) : Spectrum :=
  if e.passes s.metadata.coincidence s.metadata.anticoincidence then
    match Counts.cellOf? s.axes s.metadata e with
    | some coords => s.add coords 1
    | none => s
  else s

/-- Counts events one after the other. -/
def accumulate (s : Spectrum) (events : List Coincidence.Event) : Spectrum :=
  events.foldl countEvent s

/-- Groups a hit and counts the events it closes. -/
def pushHit (s : Spectrum) (h : Hit) : Spectrum :=
  match s with
  | ⟨metadata, counts, builder, ready⟩ =>
    let (builder, closed) := builder.push h
    (⟨metadata, counts, builder, ready⟩ : Spectrum).accumulate closed

/-- The hit is on a channel that matters for the spectrum. -/
def takes (m : Metadata) (h : Hit) : Bool := h.routed && m.relevant h.gate

/-- Closes all open events and counts them. -/
def flush (s : Spectrum) : Spectrum :=
  let (builder, closed) := s.builder.flush
  { s with builder }.accumulate closed

/-- Fills the spectrum from a spill: first its hits, then its statistics; a
spill that closes the run flushes. -/
def push (s : Spectrum) (spill : Spill) : Spectrum :=
  if s.ready then
    let s := (spill.hits.filter (takes s.metadata)).foldl pushHit s
    let s := { s with metadata := spill.stats.foldl Metadata.mergeSnapshot s.metadata }
    if spill.isStop then s.flush else s
  else s

/-- Adds a count to a cell; nothing is added to no cell, or nothing to a cell. -/
def append (s : Spectrum) (coords : List Bin) (n : Nat) : Spectrum :=
  if coords.length = s.axes.dimensions ∧ n ≠ 0 then s.add coords n else s

/-! ## Reading -/

/-- The range of every bin of an axis. -/
def fullRange (m : Metadata) : BinRange := ⟨0, m.resolution⟩

/-- The ranges of a read: those given, or the whole of every axis when their
number does not fit. -/
def effectiveBounds (s : Spectrum) (bounds : List BinRange) : List BinRange :=
  if bounds.length = s.axes.dimensions then bounds
  else List.replicate s.axes.dimensions (fullRange s.metadata)

/-- A read is served from the touched cells. -/
def readsTouched (s : Spectrum) : Bool := s.metadata.buffered && s.axes == .two

/-- Reads the cells in a range of each axis.  A buffered read gives the cells
touched since the one before, and starts anew whatever its range. -/
def readRange (s : Spectrum) (bounds : List BinRange) : List (List Bin × Nat) × Spectrum :=
  let inside (e : List Bin × Nat) : Bool := holdsAll (s.effectiveBounds bounds) e.1
  if s.readsTouched then
    (s.counts.touchedEntries.filter inside, { s with counts := s.counts.forgetTouched })
  else (s.counts.entries.filter inside, s)

/-- The value of a bin of an axis: calibrated by the detector of the axis, or
the number of the bin. -/
def axisValue (s : Spectrum) (dimension bin : Nat) : Float :=
  let v := Digitized.ofRaw (UInt16.ofNat (min bin 0xFFFF)) s.metadata.bits
  match s.metadata.detectors[dimension]? with
  | some d => d.calibrate v
  | none => v.raw.toNat.toFloat

/-- The values of the bins of an axis. -/
def axisValues (s : Spectrum) (dimension : Nat) : List Float :=
  if dimension < s.axes.dimensions then
    (List.range s.metadata.resolution).map (s.axisValue dimension)
  else []

/-- Checks whether the counts are symmetric and keeps the result. -/
def checkSymmetry (s : Spectrum) : Option Bool × Spectrum :=
  match s.counts.symmetric? with
  | some b => (some b, { s with metadata := { s.metadata with symmetric := some b } })
  | none => (none, s)

/-! ## Changing -/

/-- Clears the counts and the run, and keeps the setup. -/
def reset (s : Spectrum) : Spectrum :=
  { s with
    counts := .zero s.axes
    builder := .ofWindow s.metadata.window
    metadata := s.metadata.forgetRun }

/-- Assigns detectors to the axes.  As many as axes are taken as they are; of
more, those at the numbers of the axis channels are taken in order. -/
def setDetectors (s : Spectrum) (ds : List Detector) : Spectrum :=
  let n := s.axes.dimensions
  let kept := Metadata.resizeDetectors n s.metadata.detectors
  let detectors :=
    if ds.length = n then ds
    else if n < ds.length then
      let picked := ((ds.zipIdx.filter fun d => s.metadata.add.opens d.2).map (·.1)).take n
      picked ++ kept.drop picked.length
    else kept
  { s with metadata := { s.metadata with detectors, changed := true } }

/-- Takes the mark of a change away. -/
def clearChanged (s : Spectrum) : Spectrum :=
  { s with metadata := { s.metadata with changed := false } }

/-- Replaces the counts by those of a run-length text; the total is counted
anew. -/
def readText (s : Spectrum) (text : List Char) : Except SpectrumFault Spectrum :=
  match Counts.ofText s.axes text with
  | .error fault => .error (.token fault)
  | .ok (counts, maxBin) =>
    .ok
      { s with
        counts
        metadata :=
          { s.metadata with
            maxBin
            total := counts.total
            symmetric := none
            changed := true } }

/-- The spectrum in one line. -/
def summary (s : Spectrum) : String :=
  "Spectrum \x7b kind: " ++ Text.quoted s.axes.label.toList ++
    ", name: " ++ Text.quoted s.metadata.name.toList ++
    ", total_count: " ++ toString s.metadata.total ++ ", .. \x7d"

end Spectrum

end ListMode
