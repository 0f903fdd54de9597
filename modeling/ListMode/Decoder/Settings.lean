import ListMode.Folder
import ListMode.Topology

/-!
# Decoder settings

What a decoder is told beside the data: the routing of the channels, the layout
of the hits and the longest record it accepts.  Settings can be used when a
record header fits the limit, the hits have an energy field and no source id is
routed twice (`Settings.fault?`).
-/

namespace ListMode

/-! ## Fields the decoder fills -/

/-- The field of the pulse height. -/
def energyField : String := "energy"

/-- The field of the front panel input. -/
def frontField : String := "front"

/-- The field of the built-in pulse shape value. -/
def xiaShapeField : String := "XIA_PSA"

/-- The field of the user's pulse shape value. -/
def userShapeField : String := "user_PSA"

/-- The layout with every field the decoder fills. -/
def HitModel.pixie4 (base : Timebase) (traceLength : Nat) : HitModel where
  base
  fields := [⟨energyField, 16⟩, ⟨frontField, 1⟩, ⟨xiaShapeField, 16⟩, ⟨userShapeField, 16⟩]
  traceLength

/-! ## Settings -/

/-- What a decoder needs beside the data. -/
structure Settings where
  /-- The routing of the channels. -/
  topology : Topology := default
  /-- The layout of the hits. -/
  model : HitModel := .pixie4 .pixie4 0
  /-- The longest record accepted, in words. -/
  maxRecordWords : Nat := 8192
deriving DecidableEq, Repr, Inhabited

/-- Why settings cannot be used. -/
inductive SettingsFault where
  /-- A module has more ids than channels. -/
  | longRow (module length : Nat)
  /-- A term of the timebase is zero. -/
  | timebase (multiplier divider : UInt32)
  /-- The width of a field is not usable. -/
  | width (bits : Nat)
  /-- No record header fits the limit. -/
  | limit (words : Nat)
  /-- The hits have no energy field. -/
  | noEnergy
  /-- A source id is routed twice. -/
  | sharedSource
  /-- The text is not JSON of the shape of settings. -/
  | malformed
  /-- The settings file cannot be read. -/
  | file (fault : FolderFault)
deriving DecidableEq, Repr

/-- The words for a settings fault. -/
def SettingsFault.message : SettingsFault → String
  | .longRow module length =>
    s!"configuration error: module {module} lists {length} channels, " ++
      s!"at most {channelsPerModule} allowed"
  | .timebase multiplier divider => "core error: " ++ invalidTimebaseMessage multiplier divider
  | .width bits => "core error: " ++ invalidWidthMessage bits
  | .limit words => s!"configuration error: max_record_words {words} is smaller than a record header"
  | .noEnergy => s!"configuration error: hit model has no '{energyField}' field"
  | .sharedSource => "configuration error: source id routed from more than one channel"
  | .malformed => "JSON error"
  | .file fault => fault.message

namespace Settings

/-- The first reason why the settings cannot be used. -/
def fault? (s : Settings) : Option SettingsFault :=
  if s.maxRecordWords < recordHeaderWords then some (.limit s.maxRecordWords)
  else if (s.model.indexOf? energyField).isNone then some .noEnergy
  else if s.topology.routesApart then none
  else some .sharedSource

end Settings

example : Settings.fault? {} = none := by decide

end ListMode
