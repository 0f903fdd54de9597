import ListMode.Record.Block

/-!
# Writing records

The writing side of the record format.  An event is given by its header and the
blocks of its channels in any order; the channel bits of the pattern are set
from the blocks, everything else in the header is kept.
-/

namespace ListMode

/-- An event to be written: its header and a block per channel. -/
structure EventDraft where
  /-- The header; its channel bits are not looked at. -/
  header : EventHeader
  /-- The channels that took part, each with its block. -/
  blocks : List (Nat × Block)
deriving DecidableEq, Repr

namespace EventDraft

/-- Puts a channel's block in front of the blocks of higher channels. -/
def insertByChannel (b : Nat × Block) : List (Nat × Block) → List (Nat × Block)
  | [] => [b]
  | c :: cs => if b.1 < c.1 then b :: c :: cs else c :: insertByChannel b cs

/-- The blocks of the module's channels in ascending channel order; blocks past
the module's width are left out. -/
def inOrder (e : EventDraft) : List (Nat × Block) :=
  (e.blocks.filter (·.1 < channelsPerModule)).foldl (fun sorted b => insertByChannel b sorted) []

/-- The pattern with its channel bits set from the blocks. -/
def pattern (e : EventDraft) : UInt16 :=
  e.inOrder.foldl (fun p b => p ||| UInt16.ofNat (1 <<< b.1)) (e.header.pattern &&& 0xFFF0)

/-- The words of the event in the given layout. -/
def toWords (e : EventDraft) (l : Layout) : List UInt16 :=
  { e.header with pattern := e.pattern }.toWords ++ e.inOrder.flatMap (·.2.toWords l)

end EventDraft

/-- A record to be written. -/
structure RecordDraft where
  /-- The layout of the channel blocks. -/
  layout : Layout
  /-- The module. -/
  module : UInt16
  /-- Clock bits 32 to 47. -/
  timeHigh : UInt16 := 0
  /-- Clock bits 16 to 31. -/
  timeMid : UInt16 := 0
  /-- Clock bits 0 to 15. -/
  timeLow : UInt16 := 0
  /-- The words after the header. -/
  body : List UInt16 := []
deriving DecidableEq, Repr

namespace RecordDraft

/-- The record with an event at the end. -/
def event (r : RecordDraft) (e : EventDraft) : RecordDraft :=
  { r with body := r.body ++ e.toWords r.layout }

/-- The record with words at the end that are taken as they are. -/
def raw (r : RecordDraft) (words : List UInt16) : RecordDraft := { r with body := r.body ++ words }

/-- The header over the record's body; a length past the largest word is held
there. -/
def header (r : RecordDraft) : RecordHeader where
  wordCount := Block.lengthWord (recordHeaderWords + r.body.length)
  module := r.module
  layout := r.layout
  timeHigh := r.timeHigh
  timeMid := r.timeMid
  timeLow := r.timeLow

/-- The words of the record. -/
def toWords (r : RecordDraft) : List UInt16 := r.header.toWords ++ r.body

/-- The bytes of the record. -/
def toBytes (r : RecordDraft) : List UInt8 := Word.toBytes r.toWords

end RecordDraft

end ListMode
