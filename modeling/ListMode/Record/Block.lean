import ListMode.Record.Header

/-!
# Channel blocks

After an event's header comes one block for each channel that took part.  In
the layouts with a full header a block opens with its own length in words,
which only the waveform layout uses: the words past the nine header words are
the waveform.
-/

namespace ListMode

/-- What a record says of one channel in one event. -/
structure Block where
  /-- The trigger time, clock bits 0 to 15. -/
  trigger : UInt16 := 0
  /-- The pulse height. -/
  energy : UInt16 := 0
  /-- The built-in pulse shape value. -/
  xiaShape : UInt16 := 0
  /-- The user's pulse shape value. -/
  userShape : UInt16 := 0
  /-- Clock bits 32 to 47 of the channel, where the layout carries them. -/
  timeHigh : Option UInt16 := none
  /-- The waveform, where the layout carries one. -/
  trace : List UInt16 := []
deriving DecidableEq, Repr

namespace Block

/-- The number of words of a full block header. -/
def headerWords : Nat := 9

/-! ## Reading -/

/-- Reads the length word and the eight other words of a full header. -/
def readFull : Reader (Nat × Block) := do
  let words ← Cursor.next
  let trigger ← Cursor.next
  let energy ← Cursor.next
  let xiaShape ← Cursor.next
  let userShape ← Cursor.next
  Cursor.skip 3
  let timeHigh ← Cursor.next
  return (words.toNat, { trigger, energy, xiaShape, userShape, timeHigh := some timeHigh })

/-- Reads a full header and the waveform after it.  A length that does not even
cover the header is a fault of the block's first word. -/
def readTraced : Reader Block := do
  let start ← get
  let (words, block) ← readFull
  if words < headerWords then throw (.channelLength start.position words)
  let trace ← Cursor.words (words - headerWords)
  return { block with trace }

/-- Reads trigger time, energy and both pulse shape values. -/
def readShapes : Reader Block := do
  let trigger ← Cursor.next
  let energy ← Cursor.next
  let xiaShape ← Cursor.next
  let userShape ← Cursor.next
  return { trigger, energy, xiaShape, userShape }

/-- Reads trigger time and energy. -/
def readCompressed : Reader Block := do
  let trigger ← Cursor.next
  let energy ← Cursor.next
  return { trigger, energy }

/-- Reads one block of the given layout. -/
def read : Layout → Reader Block
  | .traces => readTraced
  | .full => Prod.snd <$> readFull
  | .shapes => readShapes
  | .compressed => readCompressed

/-! ## Writing -/

/-- A count as a length word, held at the largest word. -/
def lengthWord (n : Nat) : UInt16 := UInt16.ofNat (min n 0xFFFF)

/-- The words of a full header over a waveform of the given length. -/
def fullHeader (b : Block) (traceLength : Nat) : List UInt16 :=
  [lengthWord (headerWords + traceLength), b.trigger, b.energy, b.xiaShape, b.userShape,
    0, 0, 0, b.timeHigh.getD 0]

/-- The words of a block in the given layout. -/
def toWords (b : Block) : Layout → List UInt16
  | .traces => b.fullHeader b.trace.length ++ b.trace
  | .full => b.fullHeader 0
  | .shapes => [b.trigger, b.energy, b.xiaShape, b.userShape]
  | .compressed => [b.trigger, b.energy]

/-! ## Blocks move forward -/

theorem forward_readFull : readFull.Forward :=
  Reader.forward_next.bind fun _ => Reader.forward_next.bind fun _ =>
    Reader.forward_next.bind fun _ => Reader.forward_next.bind fun _ =>
      Reader.forward_next.bind fun _ => (Reader.forward_skip 3).bind fun _ =>
        Reader.forward_next.bind fun _ => Reader.forward_pure _

theorem forward_read (l : Layout) : (read l).Forward := by
  cases l with
  | traces =>
    refine Reader.forward_get.bind fun start => forward_readFull.bind fun (words, block) => ?_
    by_cases h : words < headerWords
    · simp only [h, if_true]
      exact (Reader.forward_throw _).bind fun _ =>
        (Reader.forward_words _).bind fun _ => Reader.forward_pure _
    · simp only [h, if_false]
      exact (Reader.forward_words _).bind fun _ => Reader.forward_pure _
  | full => exact forward_readFull.map Prod.snd
  | shapes =>
    exact Reader.forward_next.bind fun _ => Reader.forward_next.bind fun _ =>
      Reader.forward_next.bind fun _ => Reader.forward_next.bind fun _ => Reader.forward_pure _
  | compressed =>
    exact Reader.forward_next.bind fun _ => Reader.forward_next.bind fun _ => Reader.forward_pure _

end Block

end ListMode
