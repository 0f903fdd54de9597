import ListMode.Detector
import ListMode.Gates
import ListMode.Spectrum.Cells
import ListMode.Spill

/-!
# Spectrum metadata

What is known of a spectrum beside its counts: how it is set up, and the running
totals of the run it was filled from.

The counter of the events (`Metadata.total`) has 64 bits.  Here it is a number
without a bound, so it is followed only as long as it is below 2^64.  Events that
are counted one after the other do not come that far.  Counts that are put in or
read from a file may, and what the counter shows then is not said.
-/

namespace ListMode

/-- The number of axes of a spectrum. -/
inductive Axes where
  /-- One axis: the energies of one channel. -/
  | one
  /-- Two axes: the energies of two channels against each other. -/
  | two
deriving DecidableEq, Repr

namespace Axes

/-- The number of axes as a number. -/
def dimensions : Axes → Nat
  | .one => 1
  | .two => 2

/-- The axes of a number. -/
def ofDimensions? : Nat → Option Axes
  | 1 => some .one
  | 2 => some .two
  | _ => none

/-- The label of a kind of spectrum. -/
def label : Axes → String
  | .one => "1D"
  | .two => "2D"

end Axes

/-- The setup and the running totals of a spectrum. -/
structure Metadata where
  /-- The spectrum's name, under which it is exported. -/
  name : String := "histogram"
  /-- The kind of spectrum, once there is one. -/
  kind : Option Axes := none
  /-- The number of axes asked for. -/
  dimensions : Nat := 1
  /-- The resolution of each axis in bits. -/
  bits : Nat := 14
  /-- The channels of the axes. -/
  add : Gates := default
  /-- The channels an event has to hold. -/
  coincidence : Gates := default
  /-- The channels an event must not hold. -/
  anticoincidence : Gates := default
  /-- The coincidence window in nanoseconds. -/
  window : Float := 50.0
  /-- A range read gives the cells touched since the one before. -/
  buffered : Bool := false
  /-- A detector for each axis. -/
  detectors : List Detector := []
  /-- The number of events counted, as long as it is below 2^64. -/
  total : Nat := 0
  /-- The largest number met on any axis. -/
  maxBin : Bin := 0
  /-- What the last check of symmetry found. -/
  symmetric : Option Bool := none
  /-- The live time of each channel in seconds. -/
  liveTimes : List (SourceId × Float) := []
  /-- The real time of each channel in seconds. -/
  realTimes : List (SourceId × Float) := []
  /-- When the run started. -/
  startTime : Option Instant := none
  /-- The spectrum was changed since this mark was taken away. -/
  changed : Bool := false
deriving Inhabited

/-- A table of times with the time of one channel set. -/
def setTime (source : SourceId) (seconds : Float) (table : List (SourceId × Float)) :
    List (SourceId × Float) :=
  insertByKey (·.1.toInt) (source, seconds) table

namespace Metadata

/-- The number of bins of an axis. -/
def resolution (m : Metadata) : Nat := 1 <<< min m.bits 16

/-- The channels of the axes, in axis order. -/
def axisChannels (m : Metadata) : List Nat := m.add.selected

/-- Hits on the channel matter for the spectrum. -/
def relevant (m : Metadata) (channel : Nat) : Bool :=
  m.add.opens channel || m.coincidence.opens channel || m.anticoincidence.opens channel

/-- Takes the statistics of a channel of the axes into account. -/
def mergeSnapshot (m : Metadata) (s : Snapshot) : Metadata :=
  if 0 ≤ s.source ∧ m.add.opens s.source.toNatClampNeg then
    { m with
      startTime := if s.phase = .start then m.startTime <|> s.labTime else m.startTime
      liveTimes := match s.item? Snapshot.liveTimeItem with
        | some t => setTime s.source t m.liveTimes
        | none => m.liveTimes
      realTimes := match s.item? Snapshot.realTimeItem with
        | some t => setTime s.source t m.realTimes
        | none => m.realTimes
      changed := true }
  else m

/-- The metadata without the totals of a run. -/
def forgetRun (m : Metadata) : Metadata :=
  { m with
    total := 0
    maxBin := 0
    symmetric := none
    liveTimes := []
    realTimes := []
    startTime := none
    changed := true }

/-- A list of detectors cut or filled up to a length. -/
def resizeDetectors (length : Nat) (ds : List Detector) : List Detector :=
  ds.take length ++ List.replicate (length - ds.length) ({} : Detector)

end Metadata

end ListMode
