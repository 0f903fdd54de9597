import ListMode.Hit.Basic
import ListMode.Table

/-!
# Spills

A spill is one batch of an acquisition.  It arrives raw, as list-mode bytes,
leaves the decoder as hits, and may carry statistics snapshots of single
channels.  A snapshot that closes a run makes the spill a stop
(`Spill.isStop`).
-/

namespace ListMode

/-! ## Statistics -/

/-- Where in a run a snapshot was taken. -/
inductive RunPhase where
  /-- The first snapshot of a run. -/
  | start
  /-- A snapshot of a live run. -/
  | running
  /-- The last snapshot of a run. -/
  | stop
deriving DecidableEq, Repr, Inhabited

/-- Wall-clock time in seconds since 1970. -/
abbrev Instant := Int

/-- A statistics snapshot of one source channel. -/
structure Snapshot where
  /-- Where in the run it was taken. -/
  phase : RunPhase
  /-- The channel it belongs to. -/
  source : SourceId
  /-- The named counters, one value per name. -/
  items : List (String × Float) := []
  /-- When it was taken. -/
  labTime : Option Instant := none

namespace Snapshot

/-- The item name of the live time net of the dead time. -/
def liveTimeItem : String := "live_time"

/-- The item name of the module's real time. -/
def realTimeItem : String := "native_time"

/-- The value of a named counter. -/
def item? (s : Snapshot) (name : String) : Option Float := s.items.lookup name

end Snapshot

/-- Snapshots by channel; of two snapshots of a channel the later counts. -/
def snapshotTable (snapshots : List Snapshot) : List Snapshot :=
  tableOf (·.source.toInt) snapshots

/-! ## Spills -/

/-- One batch of an acquisition. -/
structure Spill where
  /-- List-mode bytes waiting to be decoded. -/
  raw : List UInt8 := []
  /-- Decoded hits. -/
  hits : List Hit := []
  /-- Statistics snapshots, one per channel, in ascending channel order. -/
  stats : List Snapshot := []
  /-- When the batch was captured. -/
  time : Instant := 0
deriving Inhabited

/-- A spill that holds both raw bytes and hits. -/
structure MixedSpill where
  /-- The number of raw bytes. -/
  rawBytes : Nat
  /-- The number of hits. -/
  hits : Nat
deriving DecidableEq, Repr

/-- The words for a mixed spill. -/
def MixedSpill.message (m : MixedSpill) : String :=
  s!"spill holds {m.rawBytes} raw bytes and {m.hits} decoded hits"

namespace Spill

/-- The raw spill of a byte string. -/
def ofRaw (raw : List UInt8) (time : Instant) : Spill := { raw, time }

/-- The spill that carries only the given snapshots, all of one phase and taken
at the capture time. -/
def ofStats (stats : List Snapshot) (phase : RunPhase) (time : Instant) : Spill :=
  { stats := snapshotTable (stats.map ({ · with phase, labTime := some time })), time }

/-- Raw bytes are waiting to be decoded. -/
def isRaw (s : Spill) : Bool := !s.raw.isEmpty

/-- The spill carries decoded hits only. -/
def isDecoded (s : Spill) : Bool := s.raw.isEmpty && !s.hits.isEmpty

/-- Some snapshot closes the run. -/
def isStop (s : Spill) : Bool := s.stats.any (·.phase == .stop)

/-- The fault of a spill that holds both raw bytes and hits. -/
def fault? (s : Spill) : Option MixedSpill :=
  if s.isRaw && !s.hits.isEmpty then some ⟨s.raw.length, s.hits.length⟩ else none

end Spill

end ListMode
