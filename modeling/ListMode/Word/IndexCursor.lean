import ListMode.Record.Fault
import ListMode.Word.Basic

/-!
# Cursors by index

A cursor may also be kept as the buffer itself and two word indices, where the next
read is and where the window ends.  A read then looks the bytes of a word up in the
buffer, and what keeps it inside the window is a check made in front of it, not the list
of the words that are left.  So more can go wrong here: the window could end before the
place of the cursor, or a byte could be looked up where the buffer has none (`Miss`).

Any cursor can be split into a child over the next words and the cursor behind them.
The cursors that come from one buffer in this way are asked one at a time
(`IndexCursor.ask`).
-/

namespace ListMode

/-- A buffer, and a window of its words by their indices. -/
structure IndexCursor where
  /-- The bytes of the words. -/
  buffer : Array UInt8
  /-- The index of the next word. -/
  position : Nat
  /-- The index of the first word behind the window. -/
  stop : Nat
deriving DecidableEq, Repr

/-- Why a read by index gives nothing. -/
inductive Miss where
  /-- More words are asked for than the window holds. -/
  | short (fault : DataFault)
  /-- The window ends before the place of the cursor. -/
  | inverted
  /-- A byte is looked up behind the end of the buffer. -/
  | outside
deriving DecidableEq, Repr

/-- A program on a cursor by index. -/
abbrev IndexReader := EStateM Miss IndexCursor

namespace IndexCursor

/-- The cursor over the whole words of a byte string. -/
def ofBytes (bytes : List UInt8) : IndexCursor := ⟨bytes.toArray, 0, bytes.length / 2⟩

/-- The number of words left in the window. -/
def remaining (c : IndexCursor) : Nat := c.stop - c.position

/-- The window is used up. -/
def isEmpty (c : IndexCursor) : Bool := c.stop ≤ c.position

/-- The word with an index, when the buffer has both its bytes. -/
def wordAt? (buffer : Array UInt8) (i : Nat) : Option UInt16 :=
  match buffer[2 * i]?, buffer[2 * i + 1]? with
  | some lo, some hi => some (Word.decode lo hi)
  | _, _ => none

/-- The `n` words from an index on, when the buffer has all their bytes. -/
def wordsAt? (buffer : Array UInt8) (i n : Nat) : Option (List UInt16) :=
  if 2 * (i + n) ≤ buffer.size then
    some (Word.ofBytes (buffer.extract (2 * i) (2 * (i + n))).toList)
  else none

/-! ## Readers -/

/-- Stops unless the window holds `needed` words. -/
def check (needed : Nat) : IndexReader Unit := fun c =>
  if c.stop < c.position then .error .inverted c
  else if c.remaining < needed then
    .error (.short (.truncated c.position needed c.remaining)) c
  else .ok () c

/-- Looks something up in the buffer at the place of the cursor. -/
def lookUp {α : Type} (at? : Array UInt8 → Nat → Option α) : IndexReader α := fun c =>
  match at? c.buffer c.position with
  | some a => .ok a c
  | none => .error .outside c

/-- Moves the cursor forward by a number of words. -/
def advance (n : Nat) : IndexReader Unit := fun c =>
  .ok () { c with position := c.position + n }

/-- Reads the next word. -/
def next : IndexReader UInt16 := do
  check 1
  let w ← lookUp wordAt?
  advance 1
  return w

/-- Gives the next word without moving. -/
def peek : IndexReader UInt16 := do
  check 1
  lookUp wordAt?

/-- Passes over the next `n` words. -/
def skip (n : Nat) : IndexReader Unit := do
  check n
  advance n

/-- Reads the next `n` words. -/
def words (n : Nat) : IndexReader (List UInt16) := do
  check n
  let ws ← lookUp fun buffer i => wordsAt? buffer i n
  advance n
  return ws

/-- Splits off a child cursor over the next `n` words and passes over them. -/
def take (n : Nat) : IndexReader IndexCursor := do
  check n
  let c ← get
  advance n
  return { c with stop := c.position + n }

/-! ## Requests -/

/-- An operation on a cursor. -/
inductive Op where
  | next
  | peek
  | skip (n : Nat)
  | words (n : Nat)
  | take (n : Nat)
deriving DecidableEq, Repr

/-- What an operation gives. -/
inductive Answer where
  | word (w : UInt16)
  | passed
  | words (ws : List UInt16)
  | child (c : IndexCursor)
deriving DecidableEq, Repr

/-- Runs an operation. -/
def Op.run : Op → IndexReader Answer
  | .next => do return .word (← IndexCursor.next)
  | .peek => do return .word (← IndexCursor.peek)
  | .skip n => do
    IndexCursor.skip n
    return .passed
  | .words n => do return .words (← IndexCursor.words n)
  | .take n => do return .child (← IndexCursor.take n)

/-- The child cursors in an answer. -/
def Answer.children : Answer → List IndexCursor
  | .child c => [c]
  | _ => []

/-- An operation for one of several cursors. -/
structure Request where
  /-- The number of the cursor. -/
  cursor : Nat
  /-- What is asked of it. -/
  op : Op
deriving DecidableEq, Repr

/-- Asks one of several cursors, if there is one with the number.  A child that is split
off becomes the last of them. -/
def ask (cursors : List IndexCursor) (r : Request) :
    List IndexCursor × Option (Except Miss Answer) :=
  match cursors[r.cursor]? with
  | none => (cursors, none)
  | some c =>
    match r.op.run c with
    | .ok a c' => (cursors.set r.cursor c' ++ a.children, some (.ok a))
    | .error e c' => (cursors.set r.cursor c', some (.error e))

/-- The cursors after some requests. -/
def askAll (cursors : List IndexCursor) (requests : List Request) : List IndexCursor :=
  requests.foldl (fun cursors r => (ask cursors r).1) cursors

end IndexCursor

end ListMode
