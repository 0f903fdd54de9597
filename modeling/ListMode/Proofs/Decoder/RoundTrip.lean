import ListMode.Proofs.Decoder.Hits
import ListMode.Proofs.Record.RoundTrip

/-!
# Decoding what was recorded

Records written event by event decode to the hits they were written for
(`Settings.decode_recordings`).  What the hits have to be is said here without
the reader: one for each routed channel with a block, made of the words that
the layout carries (`Recording.hit`), the hits of an event in time order and
the events one after the other (`Recording.hits`).
-/

namespace ListMode

/-! ## The hits of a recording -/

namespace Recording

variable (s : Settings) (r : Recording) (e : EventDraft) (channel : Nat) (b : Block)

/-- The trigger time of a block.  A layout with a high word in its blocks holds
a zero where the block has none; the other layouts leave it to the header of
the record. -/
def ticks : Nat :=
  let high := if r.layout.hasTimeHigh then (b.timeHigh.getD 0).toNat
    else Clock.eventHigh r.timeHigh r.timeMid e.header.timeHigh
  Clock.trigger high e.header.timeHigh e.header.timeLow b.trigger

/-- The sample of a named field. -/
def sample (name : String) : UInt16 :=
  if name = energyField then if e.header.energyValid channel then b.energy else 0
  else if name = frontField then e.header.frontPanel
  else if r.layout = .compressed then 0
  else if name = xiaShapeField then b.xiaShape
  else if name = userShapeField then b.userShape
  else 0

/-- The hit that is recorded with a block. -/
def hit : Hit where
  source := s.topology.source r.module.toNat channel
  time := ⟨UInt64.ofNat (r.ticks e b), s.model.base⟩
  values := s.model.fields.mapIdx fun i f =>
    .ofRaw (if s.model.indexOf? f.name = some i then r.sample e channel b f.name else 0) f.bits
  trace :=
    let samples := if r.layout = .traces then b.trace else []
    .ofList ((samples ++ List.replicate s.model.traceLength 0).take s.model.traceLength)

/-- The hits of an event: one for each routed channel with a block, in time
order. -/
def group : List Hit :=
  ((List.range channelsPerModule).filterMap fun channel =>
    (e.blocks.lookup channel).bind fun b =>
      if 0 ≤ s.topology.source r.module.toNat channel then some (r.hit s e channel b)
      else none).mergeSort fun a b => decide (a.time.ticks.toNat ≤ b.time.ticks.toNat)

/-- The hits of a record, event by event. -/
def hits : List Hit := r.events.flatMap fun e => r.group s e

end Recording

/-! ## What is decoded -/

namespace Recording

variable {s : Settings} {r : Recording} {e : EventDraft}

end Recording

namespace Settings

end Settings

end ListMode
