import ListMode.Hit.Digitized
import ListMode.Room
import ListMode.Time

/-!
# Hit models

The hits of one group of channels share a layout: the clock they are timed by,
the named digitized fields they carry, in order, and the number of waveform
samples that follow.  A field may be declared at one to sixteen bits.
-/

namespace ListMode

/-- A named digitized field of a hit. -/
structure Field where
  /-- The field's name. -/
  name : String
  /-- The field's width in bits. -/
  bits : Nat
deriving DecidableEq, Repr

/-- The layout shared by the hits of one channel group. -/
structure HitModel where
  /-- The clock of the hits' timestamps. -/
  base : Timebase := default
  /-- The fields, in the order their values are kept. -/
  fields : List Field := []
  /-- The number of waveform samples. -/
  traceLength : Nat := 0
deriving DecidableEq, Repr, Inhabited

/-- A width is usable for a field or an axis when it lies between one and
sixteen bits. -/
def UsableWidth (bits : Nat) : Prop := 1 ≤ bits ∧ bits ≤ 16

instance (bits : Nat) : Decidable (UsableWidth bits) := inferInstanceAs (Decidable (_ ∧ _))

/-- The words for an unusable field width. -/
def invalidWidthMessage (bits : Nat) : String :=
  s!"invalid bit width: {bits} (must be 1..=16)"

namespace HitModel

/-- The model with one more field at the end, or nothing when the width is not
usable. -/
def addField? (m : HitModel) (name : String) (bits : Nat) : Option HitModel :=
  if UsableWidth bits then some { m with fields := m.fields ++ [⟨name, bits⟩] } else none

/-- The position of the first field of a name. -/
def indexOf? (m : HitModel) (name : String) : Option Nat :=
  m.fields.findIdx? (·.name == name)

/-- A zero value for every field. -/
def blank (m : HitModel) : List Digitized := m.fields.map fun f => Digitized.ofRaw 0 f.bits

/-- There is room for the waveform of a hit, two bytes a sample. -/
def fits (m : HitModel) : Bool := Room.holds m.traceLength 2

end HitModel

end ListMode
