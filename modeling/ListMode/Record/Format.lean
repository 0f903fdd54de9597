import ListMode.Word.Cursor

/-!
# Block layouts

The third word of a record names the run type, which has to be list mode, and
the layout of the record's channel blocks.
-/

namespace ListMode

/-- The layout of the channel blocks of a record. -/
inductive Layout where
  /-- The full block header and a waveform. -/
  | traces
  /-- The full block header. -/
  | full
  /-- Trigger time, energy and both pulse shape values. -/
  | shapes
  /-- Trigger time and energy. -/
  | compressed
deriving DecidableEq, Repr, Inhabited

namespace Layout

/-- The number of a layout in the format word. -/
def code : Layout → Nat
  | .traces => 0
  | .full => 1
  | .shapes => 2
  | .compressed => 3

/-- The layout of a number. -/
def ofCode? : Nat → Option Layout
  | 0 => some .traces
  | 1 => some .full
  | 2 => some .shapes
  | 3 => some .compressed
  | _ => none

/-- The format word of a list-mode record. -/
def formatWord (l : Layout) : UInt16 := UInt16.ofNat (0x0100 + l.code)

/-- The layout named by a format word: bits 8 to 11 must say list mode, bits 0
to 3 give the layout, and the other bits are free. -/
def ofFormatWord (word : UInt16) : Except DataFault Layout :=
  if word.toNat / 0x100 % 0x10 ≠ 1 then .error (.unsupportedRunType word)
  else
    match ofCode? (word.toNat % 0x10) with
    | some l => .ok l
    | none => .error (.unknownFormat word)

/-- A block of the layout carries the highest word of its own clock. -/
def hasTimeHigh : Layout → Bool
  | .traces | .full => true
  | .shapes | .compressed => false

end Layout

end ListMode
