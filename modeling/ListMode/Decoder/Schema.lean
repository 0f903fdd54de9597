import ListMode.Decoder.Settings
import ListMode.Json.Shape

/-!
# Settings as JSON

Settings are written as a record with the fields `modules`, `model` and
`max_record_words`, all of which may be left out.  The text is read first
(`SettingsText.ofJson?`), then the settings are made from it: the rows of the
modules, the timebase and the fields of the hits are checked in this order, and
the settings as a whole last.
-/

namespace ListMode

/-- What a settings text says, before any of it is checked. -/
structure SettingsText where
  /-- The ids of each module. -/
  modules : Option (List (List SourceId)) := none
  /-- The terms of the timebase. -/
  base : Timebase := .pixie4
  /-- The fields of the hits. -/
  fields : Option (List Field) := none
  /-- The number of waveform samples. -/
  traceLength : Nat := 0
  /-- The longest record accepted. -/
  maxRecordWords : Option Nat := none

namespace SettingsText

open Json

/-! ## Reading the text -/

/-- Reads a source id. -/
def source? (n : Node) : Option SourceId :=
  (n.integer? (-32768) 32767).map Int16.ofInt

/-- Reads the terms of a timebase. -/
def base? (n : Node) : Option Timebase := do
  let fields ← n.fields? ["multiplier", "divider"]
  let term (i : Nat) (default : UInt32) : Option UInt32 :=
    field? (fun n => (n.natural? 32).map UInt32.ofNat) default (fields[i]?.getD none)
  return ⟨← term 0 Timebase.pixie4.multiplier, ← term 1 Timebase.pixie4.divider⟩

/-- Reads the name and the width of a field; both have to be there. -/
def hitField? (n : Node) : Option Field := do
  match ← n.fields? ["name", "bits"] with
  | [some name, some bits] => return ⟨← name.text?, ← bits.natural? 16⟩
  | _ => none

/-- Reads the layout of the hits into a text. -/
def model? (t : SettingsText) (n : Node) : Option SettingsText := do
  match ← n.fields? ["timebase", "values", "trace_length"] with
  | [base, values, traceLength] =>
    let base ← field? base? t.base base
    let fields ← field? (Node.nullable? (Node.list? hitField?)) none values
    let traceLength ← field? (Node.natural? 64) 0 traceLength
    return { t with base, fields, traceLength }
  | _ => none

/-- Reads a whole settings node. -/
def ofNode? (n : Node) : Option SettingsText := do
  match ← n.fields? ["modules", "model", "max_record_words"] with
  | [modules, model, limit] =>
    let modules ← field? (Node.nullable? (Node.list? (Node.list? source?))) none modules
    let maxRecordWords ← field? (Node.nullable? (Node.natural? 64)) none limit
    field? (model? { modules, maxRecordWords }) { modules, maxRecordWords } model
  | _ => none

/-- Reads a settings text. -/
def ofJson? (bytes : List UInt8) : Option SettingsText := do ofNode? (← Json.read? bytes)

/-! ## Making the settings -/

/-- The rows of the modules, or the first module with too many ids. -/
def rows (modules : List (List SourceId)) : Except SettingsFault Topology :=
  Topology.mk <$> modules.zipIdx.mapM fun (ids, m) =>
    match Topology.row? ids with
    | some row => .ok row
    | none => .error (.longRow m ids.length)

/-- The layout of the hits, or the first field whose width is not usable. -/
def model (base : Timebase) (traceLength : Nat) (fields : List Field) :
    Except SettingsFault HitModel :=
  fields.foldlM (fun m f =>
    match m.addField? f.name f.bits with
    | some m => .ok m
    | none => .error (.width f.bits)) { base, traceLength }

/-- The settings a text says. -/
def settings (t : SettingsText) : Except SettingsFault Settings := do
  let topology ← match t.modules with
    | some modules => rows modules
    | none => pure default
  let base ← match Timebase.ofTerms? t.base.multiplier t.base.divider with
    | some base => pure base
    | none => throw (.timebase t.base.multiplier t.base.divider)
  let model ← match t.fields with
    | some fields => model base t.traceLength fields
    | none => pure (.pixie4 base t.traceLength)
  let settings : Settings := { topology, model, maxRecordWords := t.maxRecordWords.getD 8192 }
  match settings.fault? with
  | some fault => throw fault
  | none => return settings

end SettingsText

/-- The settings of a JSON text, which have to be usable. -/
def Settings.ofJson (bytes : List UInt8) : Except SettingsFault Settings :=
  match SettingsText.ofJson? bytes with
  | some text => text.settings
  | none => .error .malformed

/-- The settings in a file.  A folder in place of the file holds no text. -/
def Settings.ofFile (contents : Except FolderFault ByteArray) : Except SettingsFault Settings :=
  match contents with
  | .ok bytes => Settings.ofJson bytes.data.toList
  | .error .isFolder => .error .malformed
  | .error fault => .error (.file fault)

end ListMode
