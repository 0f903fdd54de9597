import ListMode.Record.Format

/-!
# Record and event headers

A record opens with six words: its length in words, the module number, the
format word and three clock words, highest first.  An event opens with three
words: the hit pattern and two clock words.  The hit pattern has a bit for each
of the module's four channels that took part, one for the front panel input,
and one for each channel whose energy is valid.
-/

namespace ListMode

/-- The number of channels of a module. -/
def channelsPerModule : Nat := 4

/-! ## Record headers -/

/-- The number of words of a record header. -/
def recordHeaderWords : Nat := 6

/-- The header of a record. -/
structure RecordHeader where
  /-- The record's length in words, header included. -/
  wordCount : UInt16
  /-- The module the record was read from. -/
  module : UInt16
  /-- The layout of the channel blocks. -/
  layout : Layout
  /-- Clock bits 32 to 47 when the record was opened. -/
  timeHigh : UInt16
  /-- Clock bits 16 to 31. -/
  timeMid : UInt16
  /-- Clock bits 0 to 15. -/
  timeLow : UInt16
deriving DecidableEq, Repr

/-- Reads the five header words after a record's length.  A format word that
cannot be used stops the reading before the clock words. -/
def RecordHeader.read (wordCount : UInt16) : Reader RecordHeader := do
  let module ← Cursor.next
  let word ← Cursor.next
  let layout ← liftExcept (Layout.ofFormatWord word)
  let timeHigh ← Cursor.next
  let timeMid ← Cursor.next
  let timeLow ← Cursor.next
  return { wordCount, module, layout, timeHigh, timeMid, timeLow }
where
  /-- A plain result as a reader that does not move. -/
  liftExcept {α : Type} : Except DataFault α → Reader α
    | .ok a => pure a
    | .error e => throw e

/-- The six words of a record header. -/
def RecordHeader.toWords (h : RecordHeader) : List UInt16 :=
  [h.wordCount, h.module, h.layout.formatWord, h.timeHigh, h.timeMid, h.timeLow]

/-! ## Event headers -/

/-- The header of an event. -/
structure EventHeader where
  /-- Bits 0 to 3: channels hit; bit 4: front panel; bits 8 to 11: valid
  energies. -/
  pattern : UInt16
  /-- Clock bits 16 to 31 of the event. -/
  timeHigh : UInt16
  /-- Clock bits 0 to 15 of the event. -/
  timeLow : UInt16
deriving DecidableEq, Repr

namespace EventHeader

/-- Reads the three words of an event header. -/
def read : Reader EventHeader := do
  let pattern ← Cursor.next
  let timeHigh ← Cursor.next
  let timeLow ← Cursor.next
  return { pattern, timeHigh, timeLow }

/-- The three words of an event header. -/
def toWords (e : EventHeader) : List UInt16 := [e.pattern, e.timeHigh, e.timeLow]

/-- A bit of the pattern. -/
def bit (e : EventHeader) (i : Nat) : Bool := e.pattern.toNat.testBit i

/-- A channel of the module took part in the event. -/
def hit (e : EventHeader) (channel : Nat) : Bool :=
  channel < channelsPerModule && e.bit channel

/-- The energy of a channel of the module is valid. -/
def energyValid (e : EventHeader) (channel : Nat) : Bool :=
  channel < channelsPerModule && e.bit (channel + 8)

/-- The front panel input, zero or one. -/
def frontPanel (e : EventHeader) : UInt16 := if e.bit 4 then 1 else 0

/-- The channels that took part, in ascending order. -/
def channels (e : EventHeader) : List Nat := (List.range channelsPerModule).filter e.hit

end EventHeader

/-! ## Headers move forward -/

theorem RecordHeader.forward_read (n : UInt16) : (RecordHeader.read n).Forward :=
  Reader.forward_next.bind fun _ => Reader.forward_next.bind fun word =>
    Reader.Forward.bind (by
      cases Layout.ofFormatWord word with
      | ok l => exact Reader.forward_pure l
      | error e => exact Reader.forward_throw e)
    fun _ => Reader.forward_next.bind fun _ => Reader.forward_next.bind fun _ =>
      Reader.forward_next.bind fun _ => Reader.forward_pure _

theorem EventHeader.forward_read : EventHeader.read.Forward :=
  Reader.forward_next.bind fun _ => Reader.forward_next.bind fun _ =>
    Reader.forward_next.bind fun _ => Reader.forward_pure _

end ListMode
