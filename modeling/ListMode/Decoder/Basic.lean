import ListMode.Decoder.Settings
import ListMode.Record.Buffer
import ListMode.Record.Clock
import ListMode.Spill

/-!
# Decoding

Decoding turns the events of a buffer into hits.  A channel of an event becomes
a hit on the source channel the topology names, and no hit when it names none.
Each event gives a group of hits in time order (`Settings.group`), and the hits
of a buffer are the groups of its events one after the other.

Reading a buffer does not depend on the settings beyond the longest record
accepted, so routing can only filter and name hits, never change what is read.

The model may ask for waveforms that there is no room for.  Then the first
routed block ends the work: nothing is decoded of a buffer that holds one
(`Settings.decode?`), and a buffer that holds none is decoded as ever.
-/

namespace ListMode

/-! ## From events to hits -/

namespace Settings

/-- The samples of a channel by field: no energy that is not valid is kept. -/
def samples (event : EventHeader) (channel : Nat) (block : Block) : List (String × UInt16) :=
  [(energyField, if event.energyValid channel then block.energy else 0),
    (frontField, event.frontPanel),
    (xiaShapeField, block.xiaShape),
    (userShapeField, block.userShape)]

/-- The hit with the sample of a named field set; a name the model does not
have is ignored. -/
def setField (model : HitModel) (h : Hit) (sample : String × UInt16) : Hit :=
  match model.indexOf? sample.1 with
  | some i => h.setValue i sample.2
  | none => h

/-- The hit of a channel of an event on a source channel. -/
def hit (s : Settings) (event : Event) (channel : Nat) (block : Block) (source : SourceId) : Hit :=
  let blank := (Hit.blank source s.model).setTicks
    (UInt64.ofNat (Clock.ticks event.record event.header block))
  ((samples event.header channel block).foldl (setField s.model) blank).setTrace block.trace

/-- The hit of a channel of an event, when the channel is routed. -/
def hit? (s : Settings) (event : Event) (channel : Nat) (block : Block) : Option Hit :=
  let source := s.topology.source event.record.module.toNat channel
  if source < 0 then none else some (s.hit event channel block source)

/-- The hits of an event, in time order. -/
def group (s : Settings) (event : Event) : List Hit :=
  Timestamp.sortOn Hit.time (event.blocks.filterMap fun (channel, block) =>
    s.hit? event channel block)

end Settings

/-! ## Buffers -/

/-- What decoding a buffer gave. -/
structure Decoded where
  /-- The hits, event by event. -/
  hits : List Hit
  /-- The number of records read to their end. -/
  records : Nat
  /-- The number of events read, routed or not. -/
  events : Nat
  /-- What stopped the decoding before the end of the data. -/
  fault : Option DataFault
deriving Repr

namespace Settings

/-- What the events of a buffer decode to. -/
def decoded (s : Settings) (b : Buffer) : Decoded :=
  { hits := b.events.flatMap s.group
    records := b.records
    events := b.events.length
    fault := b.fault }

/-- Decodes a byte string.  The events read before a fault are kept. -/
def decode (s : Settings) (bytes : List UInt8) : Decoded :=
  s.decoded (Buffer.read s.maxRecordWords bytes)

/-- Decodes the raw bytes of a spill: they are used up, and their hits come
behind the hits it already has. -/
def decodeSpill (s : Settings) (spill : Spill) : Spill :=
  { spill with raw := [], hits := spill.hits ++ (s.decode spill.raw).hits }

/-! ## Room for the hits -/

/-- A channel of the event is routed. -/
def routes (s : Settings) (event : Event) : Bool :=
  event.blocks.any fun (channel, _) => 0 ≤ s.topology.source event.record.module.toNat channel

/-- There is room for every hit of a buffer, those of an event that was not read
to its end included. -/
def hasRoom (s : Settings) (b : Buffer) : Bool :=
  s.model.fits || !(b.events ++ b.unfinished.toList).any s.routes

/-- Decodes a byte string, if there is room for its hits. -/
def decode? (s : Settings) (bytes : List UInt8) : Option Decoded :=
  let buffer := Buffer.read s.maxRecordWords bytes
  if s.hasRoom buffer then some (s.decoded buffer) else none

/-- Decodes the raw bytes of a spill, if there is room for their hits. -/
def decodeSpill? (s : Settings) (spill : Spill) : Option Spill :=
  (s.decode? spill.raw).map fun d => { spill with raw := [], hits := spill.hits ++ d.hits }

theorem hasRoom_of_fits {s : Settings} (h : s.model.fits = true) (b : Buffer) :
    s.hasRoom b = true := by
  simp [hasRoom, h]

theorem decode?_of_fits {s : Settings} (h : s.model.fits = true) (bytes : List UInt8) :
    s.decode? bytes = some (s.decode bytes) := by
  simp [decode?, hasRoom_of_fits h, decode]

theorem decodeSpill?_of_fits {s : Settings} (h : s.model.fits = true) (spill : Spill) :
    s.decodeSpill? spill = some (s.decodeSpill spill) := by
  simp [decodeSpill?, decode?_of_fits h, decodeSpill]

end Settings

end ListMode
