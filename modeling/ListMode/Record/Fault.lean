import ListMode.Text.Hex

/-!
# Faults of list-mode data

Everything that can be wrong with a list-mode buffer.  Offsets count words from
the start of the buffer.
-/

namespace ListMode

/-- Why reading a list-mode buffer stopped. -/
inductive DataFault where
  /-- A read went past the end of its window. -/
  | truncated (offset needed available : Nat)
  /-- A record's length is out of range, or more than the buffer holds. -/
  | recordLength (offset words limit : Nat)
  /-- A channel block is too short for its own header. -/
  | channelLength (offset words : Nat)
  /-- The format word names a run that is not list mode. -/
  | unsupportedRunType (word : UInt16)
  /-- The format word names no known block layout. -/
  | unknownFormat (word : UInt16)
deriving DecidableEq, Repr

/-- The words for a fault. -/
def DataFault.message : DataFault → String
  | .truncated offset needed available =>
    s!"truncated data at word {offset}: need {needed} words, {available} available"
  | .recordLength offset words limit =>
    s!"invalid record length {words} at word {offset} (max {limit})"
  | .channelLength offset words => s!"invalid channel block length {words} at word {offset}"
  | .unsupportedRunType word => s!"unsupported run type: {Text.hexWord word}"
  | .unknownFormat word => s!"unknown list-mode format: {Text.hexWord word}"

end ListMode
