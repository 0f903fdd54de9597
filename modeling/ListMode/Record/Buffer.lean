import ListMode.Record.Block

/-!
# Reading a buffer

A buffer is a run of records, each with its length in its first word; a record
is a header and a run of events; an event is a header and the blocks of its
channels.  Reading a buffer (`Buffer.read`) gives the events of all its records
and says what stopped the reading, if anything did.  A zero in place of a
record's length ends the data.  An event that is cut off is not among the events
read; its front is kept apart (`Buffer.unfinished`).

Routing plays no part here: which channels are kept, and as what, is decided
when the events are turned into hits.
-/

namespace ListMode

/-! ## Events -/

/-- One event of a record, with the header of its record, whose clock words its
trigger times depend on. -/
structure Event where
  /-- The header of the record. -/
  record : RecordHeader
  /-- The header of the event. -/
  header : EventHeader
  /-- The channels that took part, each with its block, in ascending order. -/
  blocks : List (Nat × Block)
deriving DecidableEq, Repr

namespace Event

/-- Reads one block for each of the listed channels. -/
def readBlocks (l : Layout) : List Nat → Reader (List (Nat × Block))
  | [] => pure []
  | channel :: channels => do
    let block ← Block.read l
    let blocks ← readBlocks l channels
    return (channel, block) :: blocks

/-- Reads one event of a record. -/
def read (record : RecordHeader) : Reader Event := do
  let header ← EventHeader.read
  let blocks ← readBlocks record.layout header.channels
  return { record, header, blocks }

/-- Reads blocks for the listed channels as far as they can be read. -/
def blocksUpTo (l : Layout) : List Nat → Cursor → List (Nat × Block)
  | [], _ => []
  | channel :: channels, c =>
    match Block.read l c with
    | .ok block c => (channel, block) :: blocksUpTo l channels c
    | .error _ _ => []

/-- The front of an event that may not be there in full: its header, and the
blocks as far as they can be read. -/
def front? (record : RecordHeader) (c : Cursor) : Option Event :=
  match EventHeader.read c with
  | .ok header c => some { record, header, blocks := blocksUpTo record.layout header.channels c }
  | .error _ _ => none

theorem forward_readBlocks (l : Layout) : ∀ channels, (readBlocks l channels).Forward
  | [] => Reader.forward_pure _
  | _ :: channels =>
    (Block.forward_read l).bind fun _ => (forward_readBlocks l channels).bind fun _ =>
      Reader.forward_pure _

theorem blocksUpTo_of_readBlocks {l : Layout} : ∀ {channels : List Nat} {c c' : Cursor}
    {blocks : List (Nat × Block)}, readBlocks l channels c = .ok blocks c' →
      blocksUpTo l channels c = blocks
  | [], c, c', blocks, h => by
    cases h
    rfl
  | channel :: channels, c, c', blocks, h => by
    simp only [readBlocks, bind, EStateM.bind] at h
    rw [blocksUpTo]
    split at h
    · next block d hblock =>
      rw [hblock]
      split at h
      · next rest _ hrest =>
        cases h
        simp only [blocksUpTo_of_readBlocks hrest]
      · cases h
    · cases h

/-- An event that is there in full is its own front. -/
theorem front?_of_read {record : RecordHeader} {c c' : Cursor} {e : Event}
    (h : read record c = .ok e c') : front? record c = some e := by
  simp only [read, bind, EStateM.bind] at h
  rw [front?]
  split at h
  · next header d hheader =>
    rw [hheader]
    split at h
    · next blocks _ hblocks =>
      cases h
      simp only [blocksUpTo_of_readBlocks hblocks]
    · cases h
  · cases h

/-- An event takes at least its first header word. -/
theorem length_lt_of_read {record : RecordHeader} {c c' : Cursor} {e : Event}
    (h : read record c = .ok e c') : c'.window.length < c.window.length := by
  obtain ⟨position, window⟩ := c
  cases window with
  | nil => simp [read, EventHeader.read, Cursor.next, Bind.bind, EStateM.bind] at h
  | cons w rest =>
    let tail : Reader Event := do
      let timeHigh ← Cursor.next
      let timeLow ← Cursor.next
      let header : EventHeader := ⟨w, timeHigh, timeLow⟩
      let blocks ← readBlocks record.layout header.channels
      return { record, header, blocks }
    have htail : tail.Forward :=
      Reader.forward_next.bind fun _ => Reader.forward_next.bind fun _ =>
        (forward_readBlocks _ _).bind fun _ => Reader.forward_pure _
    have heq : read record ⟨position, w :: rest⟩ = tail ⟨position + 1, rest⟩ := by
      simp only [read, EventHeader.read, Cursor.next, Bind.bind, EStateM.bind, tail]
      rcases rest with - | ⟨a, - | ⟨b, rest⟩⟩ <;> rfl
    rw [heq] at h
    have := (htail.ok h).length_le
    simp only [List.length_cons] at this ⊢
    omega

end Event

/-! ## Runs of a reader -/

/-- What a repeated reading gave. -/
structure Readings (α : Type) where
  /-- The values read, in order. -/
  items : List α
  /-- What stopped the reading before its end. -/
  fault : Option DataFault
  /-- Where the reading ended. -/
  cursor : Cursor
  /-- Where the value begins that was read last, or could not be read. -/
  begun : Cursor
deriving Repr

namespace Reader

/-- Repeats a reader until the window is used up or it stops with a fault.  A
reader that does not use up a word is not repeated. -/
def untilEmpty {α : Type} (r : Reader α) (c : Cursor) : Readings α :=
  if c.window.isEmpty then ⟨[], none, c, c⟩
  else
    match r c with
    | .error e c' => ⟨[], some e, c', c⟩
    | .ok a c' =>
      if c'.window.length < c.window.length then
        let rest := untilEmpty r c'
        { rest with items := a :: rest.items }
      else ⟨[a], none, c', c⟩
termination_by c.window.length

end Reader

/-! ## Records and buffers -/

/-- What reading a buffer gave. -/
structure Buffer where
  /-- The events read, record by record, those of an unfinished record
  included. -/
  events : List Event := []
  /-- The number of records read to their end. -/
  records : Nat := 0
  /-- What stopped the reading before the end of the data. -/
  fault : Option DataFault := none
  /-- The front of the event in which the reading stopped. -/
  unfinished : Option Event := none
deriving Repr, Inhabited

namespace Buffer

/-- Reads a record from a window that holds exactly its words. -/
def readRecord (c : Cursor) : Buffer :=
  let header : Reader RecordHeader := do
    let count ← Cursor.next
    RecordHeader.read count
  match header c with
  | .error e _ => { fault := some e }
  | .ok h c' =>
    let read := Reader.untilEmpty (Event.read h) c'
    match read.fault with
    | none => { events := read.items, records := 1 }
    | some fault =>
      { events := read.items, fault := some fault, unfinished := Event.front? h read.begun }

/-- The readings of one run of records and of the records behind them. -/
def append (front back : Buffer) : Buffer :=
  { back with
    events := front.events ++ back.events
    records := front.records + back.records }

/-- Reads the records of a list of words that starts `offset` words into the
buffer.  No record may be longer than `limit` words. -/
def readFrom (limit offset : Nat) : List UInt16 → Buffer
  | [] => {}
  | count :: body =>
    let n := count.toNat
    if n = 0 then {}
    else if n < recordHeaderWords ∨ limit < n then { fault := some (.recordLength offset n limit) }
    else
      let record := count :: body.take (n - 1)
      if record.length < n then { fault := some (.recordLength offset n (body.length + 1)) }
      else
        let first := readRecord ⟨offset, record⟩
        if first.fault.isSome then first
        else first.append (readFrom limit (offset + n) (body.drop (n - 1)))
termination_by words => words.length
decreasing_by
  simp only [List.length_cons, List.length_drop]
  omega

/-- Reads the records of a byte string. -/
def read (limit : Nat) (bytes : List UInt8) : Buffer := readFrom limit 0 (Word.ofBytes bytes)

example : (read 8192 [6, 0, 2, 0, 0, 1, 0, 0, 0, 0, 0, 0, 0, 0]).records = 1 := by decide +kernel

end Buffer

end ListMode
