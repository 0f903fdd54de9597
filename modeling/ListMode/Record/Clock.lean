import ListMode.Record.Block

/-!
# Trigger times

The clock of a module is 48 bits wide, and no part of a record carries it
whole.  A channel's block has the lowest 16 bits of the trigger time, the
event's header the lower 32 bits of a later moment, the record's header all 48
bits of an earlier one.  `Clock.trigger` puts the trigger time together, with
two corrections for counters that wrapped between these moments.
-/

namespace ListMode.Clock

/-- The highest clock word of an event, in a record opened at the given high
and middle words: a middle word that went down has wrapped once. -/
def eventHigh (recordHigh recordMid eventMid : UInt16) : Nat :=
  if eventMid < recordMid then recordHigh.toNat + 1 else recordHigh.toNat

/-- The trigger time of a channel.  A trigger word above the event's lowest
word was latched before that word wrapped, so the middle word is one too high;
it borrows from the high word, and stops at zero. -/
def trigger (high : Nat) (eventMid eventLow triggerWord : UInt16) : Nat :=
  let coarse := high * UInt32.size + eventMid.toNat * UInt16.size
  (if triggerWord > eventLow then coarse - UInt16.size else coarse) + triggerWord.toNat

/-- The trigger time of a block: its own high word is taken as it is, and
without one the record's header supplies it. -/
def ticks (record : RecordHeader) (event : EventHeader) (block : Block) : Nat :=
  let high := match block.timeHigh with
    | some high => high.toNat
    | none => eventHigh record.timeHigh record.timeMid event.timeHigh
  trigger high event.timeHigh event.timeLow block.trigger

example : trigger 0 1 0x0010 0xFFFF = 0xFFFF := by decide
example : trigger 1 0 0x0010 0xFFFF = 0xFFFFFFFF := by decide
example : eventHigh 7 0xFFFF 0 = 8 := by decide

end ListMode.Clock
