import ListMode.Command.Report
import ListMode.Decoder.Schema
import ListMode.Pipeline.Replay
import ListMode.Spectrum.Files

/-!
# Running a request

A request is run on a folder: it reads files, perhaps writes some, and gives a
report or the fault that ended it.  Files that were written before a fault stay
written.
-/

namespace ListMode.Command

/-- What a run knows of the machine it runs on. -/
structure Machine where
  /-- The moment. -/
  now : Instant
  /-- The number of bytes of memory that are free. -/
  freeMemory : Nat

/-- Why a run did not get to its end. -/
inductive Fault where
  /-- The decoder settings cannot be used. -/
  | settings (fault : SettingsFault)
  /-- The sizes of the pipeline cannot be used. -/
  | sizing (fault : SizingFault)
  /-- The dump cannot be read. -/
  | dump (fault : FolderFault)
  /-- The session cannot start. -/
  | start (fault : SettingsFault)
  /-- A worker of the session failed. -/
  | worker (w : Worker)
  /-- The session is never over, and neither is the run. -/
  | endless
  /-- The spectrum cannot be set up, read or written. -/
  | spectrum (fault : SpectrumFault)
  /-- The folder to write into cannot be made. -/
  | out (fault : FolderFault)
  /-- More channels were asked for than there can be axes. -/
  | manyChannels
  /-- A format was asked for that spectra with this number of axes are not
  written in. -/
  | unavailable (format : String) (axes : Nat) (supported : List String)
  /-- Nothing is read from files of the format. -/
  | unreadable (format : String)
  /-- The spectrum that was read is not written in the format. -/
  | unwritable (format : String) (axes : Nat)
  /-- There is no room for what the work needs. -/
  | noRoom
deriving DecidableEq, Repr

/-- The words for a fault. -/
def Fault.message : Fault → String
  | .settings fault => "Decoder error: " ++ fault.message
  | .sizing fault => "I/O error: " ++ fault.message
  | .dump fault => "I/O error: " ++ fault.message
  | .start fault => "I/O error: decoder error: " ++ fault.message
  | .worker w => "I/O error: " ++ w.message
  | .endless => "the session is not over"
  | .spectrum fault => "Histogram error: " ++ fault.message
  | .out fault => fault.message
  | .manyChannels => "too many channels"
  | .unavailable format axes supported =>
    s!"format '{format}' not available for {axes} axes (supported: " ++
      ", ".intercalate supported ++ ")"
  | .unreadable format => s!"cannot read format '{format}'"
  | .unwritable format axes => s!"format '{format}' not available for {axes} axes"
  | .noRoom => "capacity overflow"

/-- How a run ended. -/
structure Outcome where
  /-- What there is to say. -/
  report : Report := .files []
  /-- Why it did not get to its end. -/
  fault : Option Fault := none
  /-- The folder in the end. -/
  folder : Folder

/-- The number that a run ends with. -/
def Outcome.exitCode (o : Outcome) : UInt32 :=
  match o.fault with
  | none => 0
  | some .noRoom => 101
  | some _ => 1

/-- The outcome of a run that writes nothing and gives a report or a fault, or
both. -/
def Outcome.ofReading (f : Folder) : Except Fault (Report × Option Fault) → Outcome
  | .ok (report, fault) => { report, fault, folder := f }
  | .error fault => { fault := some fault, folder := f }

namespace Request

/-! ## Reading -/

/-- A result with its fault as the fault of a run. -/
def orFault {ε α : Type} (fault : ε → Fault) : Except ε α → Except Fault α
  | .ok a => .ok a
  | .error e => .error (fault e)

/-- The decoder settings in a file, the usual ones without a file. -/
def settingsOf (f : Folder) (file : Option String) : Except Fault Settings :=
  match file with
  | none => .ok {}
  | some name => orFault .settings (Settings.ofFile (f.read (Folder.path name)))

/-- The bytes of a dump. -/
def dumpOf (f : Folder) (file : String) : Except Fault (List UInt8) :=
  (orFault .dump (f.readSized (Folder.path file))).map (·.data.toList)

/-- Inspects a dump.  Only its records are decoded; what is known of them is
reported even if there is no room for their hits. -/
def runInspect (f : Folder) (input : String) (settings : Option String) :
    Except Fault (Report × Option Fault) := do
  let settings ← settingsOf f settings
  let bytes ← dumpOf f input
  let scan := Scan.scan settings.maxRecordWords bytes
  let decoded := settings.decode? (bytes.take scan.consumed)
  return (.dump input bytes.length scan decoded, if decoded.isNone then some .noRoom else none)

/-- Lists the first hits of a dump. -/
def runList (f : Folder) (input : String) (settings : Option String) (limit : Nat) (json : Bool) :
    Except Fault (Report × Option Fault) := do
  let settings ← settingsOf f settings
  let bytes ← dumpOf f input
  match settings.decode? bytes with
  | none => throw .noRoom
  | some decoded =>
    let fields := settings.model.fields.map (·.name)
    return (.hits json fields (decoded.hits.take limit) decoded.hits.length, none)

/-! ## Writing -/

/-- Writes a spectrum in formats one after the other.  Gives the folder, the
formats written, and the fault that ended the writing. -/
def writeAll (s : Spectrum) (dir : FolderPath) (unwritable : String → Option Fault) (f : Folder) :
    List String → Folder × List String × Option Fault
  | [] => (f, [], none)
  | format :: formats =>
    match s.writeFile f dir format with
    | .error fault => (f, [], some (.spectrum (.file fault)))
    | .ok none =>
      match unwritable format with
      | some fault => (f, [], some fault)
      | none => writeAll s dir unwritable f formats
    | .ok (some f) =>
      let (f, written, fault) := writeAll s dir unwritable f formats
      (f, format :: written, fault)

/-- The sizes of the pipeline. -/
def sizingOf (m : Machine) (r : SpectrumRequest) : Except Fault Sizing := orFault .sizing do
  let sizing ← ({} : Sizing).withQueueDepth? r.queueDepth
  let sizing ← match r.spillWords with
    | some words => sizing.withSpillWords? words
    | none => pure sizing
  match r.memoryFraction with
  | some fraction =>
    let sizing ← sizing.withMemoryFraction? fraction
    return sizing.withQueueDepth (← sizing.depthOn m.freeMemory)
  | none => return sizing

/-- The spectrum that is asked for, before it is filled.  There has to be room
for a gate, one byte, on every channel up to the last. -/
def emptySpectrum (r : SpectrumRequest) : Except Fault Spectrum :=
  if r.channels.all fun c => Room.holds (c + 1) 1 then
    orFault .spectrum (Spectrum.create
      { name := r.name
        dimensions := r.channels.length
        bits := r.bits
        add := Gates.ofChannels r.channels
        window := r.window
        buffered := r.buffered })
  else .error .noRoom

/-- Checks the formats that are asked for. -/
def checkFormats (r : SpectrumRequest) : Except Fault Unit :=
  let axes := r.channels.length
  if UInt16.size ≤ axes then .error .manyChannels
  else
    let supported := FileFormat.outputs axes
    match r.formats.find? fun name => !supported.contains name with
    | some format => .error (.unavailable format axes supported)
    | none => .ok ()

/-- Builds the spectrum of a dump with a session. -/
def fill (m : Machine) (f : Folder) (r : SpectrumRequest) :
    Except Fault (Session.Summary × Spectrum) := do
  checkFormats r
  let settings ← settingsOf f r.settings
  let sizing ← sizingOf m r
  let spectrum ← emptySpectrum r
  let bytes ← dumpOf f r.input
  let spills := Replay.spills settings sizing m.now bytes
  let session ← orFault .start (Session.start settings sizing spills [spectrum])
  if !Session.queuesFit sizing then throw .noRoom
  let session := session.finish
  match session.outcome? with
  | none => throw .endless
  | some outcome => return (← orFault .worker outcome, session.spectra.headD spectrum)

/-- Builds the spectrum of a dump and writes it. -/
def runBuild (m : Machine) (f : Folder) (r : SpectrumRequest) : Outcome :=
  match fill m f r with
  | .error fault => { fault := some fault, folder := f }
  | .ok (summary, s) =>
    let dir := Folder.path r.out
    match f.make dir with
    | .error fault => { fault := some (.out fault), folder := f }
    | .ok f =>
      match writeAll s dir (fun _ => none) f r.formats with
      | (folder, _, some fault) => { fault := some fault, folder }
      | (folder, _, none) => { report := .spectrum r.json summary s r.formats r.out, folder }

/-- Converts the file of a spectrum. -/
def runConvert (f : Folder) (input format : String) (formats : List String) (out : String) :
    Outcome :=
  let source := Folder.path input
  match Spectrum.ofFile (Folder.fileName source) format (f.read source) with
  | .error fault => { fault := some (.spectrum fault), folder := f }
  | .ok none => { fault := some (.unreadable format), folder := f }
  | .ok (some s) =>
    let dir := Folder.path out
    match f.make dir with
    | .error fault => { fault := some (.out fault), folder := f }
    | .ok f =>
      let unwritable (name : String) : Option Fault := some (.unwritable name s.metadata.dimensions)
      let (folder, written, fault) := writeAll s dir unwritable f formats
      { report := .files (written.map fun name => s!"{out}/{s.fileName name}"), fault, folder }

/-! ## All requests -/

/-- Runs a request. -/
def run (m : Machine) (f : Folder) : Request → Outcome
  | .version => { report := .version, folder := f }
  | .inspect input settings => .ofReading f (runInspect f input settings)
  | .list input settings limit json => .ofReading f (runList f input settings limit json)
  | .build r => runBuild m f r
  | .convert input format formats out => runConvert f input format formats out

/-- The paths of the files that a request may read or write. -/
def paths : Request → List FolderPath
  | .version => []
  | .inspect input settings | .list input settings _ _ =>
    (input :: settings.toList).map Folder.path
  | .build r =>
    (r.input :: r.settings.toList).map Folder.path ++
      r.formats.map fun format => Folder.within (Folder.path r.out) (r.name ++ "." ++ format)
  | .convert input _ formats out =>
    let name := Spectrum.nameOfFile (Folder.fileName (Folder.path input))
    Folder.path input ::
      formats.map fun format => Folder.within (Folder.path out) (name ++ "." ++ format)

end Request

end ListMode.Command
