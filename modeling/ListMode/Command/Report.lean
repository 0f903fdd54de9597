import ListMode.Command.Request
import ListMode.Decimal.Fixed
import ListMode.Decoder.Basic
import ListMode.Json.Value
import ListMode.Pipeline.Session
import ListMode.Scan

/-!
# Reports

What the program has to say when it has done what it was asked for.  A report is
kept as what it tells, and turned into lines (`Report.lines`) once it is known
how the times that stand in it are written.
-/

namespace ListMode.Command

/-- How the times of a report are written. -/
structure TimeTexts where
  /-- The time the work took, with its unit. -/
  taken : String
  /-- The time the work took in seconds, without a unit. -/
  seconds : String
  /-- A moment. -/
  moment : Instant → String

/-- What the program has to say. -/
inductive Report where
  /-- Its version. -/
  | version
  /-- What a dump holds; nothing decoded when there is no room for it. -/
  | dump (name : String) (bytes : Nat) (scan : Scan) (decoded : Option Decoded)
  /-- The hits of a dump, with the names of their fields; `total` counts those
  not shown too. -/
  | hits (json : Bool) (fields : List String) (shown : List Hit) (total : Nat)
  /-- A spectrum that was built and written. -/
  | spectrum (json : Bool) (summary : Session.Summary) (s : Spectrum) (formats : List String)
    (out : String)
  /-- The files that were written. -/
  | files (paths : List String)

namespace Report

/-! ## Dumps -/

/-- Why a scan stopped, in words. -/
def stopText : ScanStop → String
  | .complete => "Complete"
  | .endMarker => "EndMarker"
  | .badLength offset words => s!"BadLength \x7b offset: {offset}, words: {words} \x7d"
  | .truncated offset => s!"Truncated \x7b offset: {offset} \x7d"

/-- A number with fixed places as a text. -/
def fixedText (places : Nat) (x : Float) : String := String.ofList (Decimal.fixed places x)

/-- The earliest and the latest time of hits in nanoseconds, when there are
hits. -/
def timeRange? (hits : List Hit) : Option (Float × Float) :=
  match hits.map (·.time.ns) with
  | [] => none
  | t :: ts => some (ts.foldl (fun a b => if b < a then b else a) t,
      ts.foldl (fun a b => if a < b then b else a) t)

/-- The lines about the records of a dump. -/
def scanLines (name : String) (bytes : Nat) (scan : Scan) : List String :=
  [s!"File: {name}",
    s!"Size: {bytes} bytes ({fixedText 2 (bytes.toUInt64.toFloat / 1000000.0)} MB)",
    s!"Records: {scan.records.length} ({scan.consumed} bytes)",
    s!"Scan stopped: {stopText scan.stop}"] ++
  (tally (scan.records.map (·.module.toNat))).map
    fun (module, n) => s!"  module {module}: {n} records"

/-- The lines about what a dump decodes to. -/
def decodedLines (t : TimeTexts) (decoded : Decoded) : List String :=
  [s!"Events: {decoded.events}, hits: {decoded.hits.length} (decoded in {t.taken})"] ++
  (decoded.fault.map fun f => s!"Decode stopped early: {f.message}").toList ++
  (tally (decoded.hits.map (·.source.toInt))).map (fun (source, n) => s!"  source {source}: {n} hits") ++
  ((timeRange? decoded.hits).map fun (first, last) =>
    s!"Time range: {fixedText 0 first} - {fixedText 0 last} ns " ++
      s!"({fixedText 6 ((last - first) / 1000000000.0)} s)").toList

/-! ## Hits -/

/-- A text with blanks in front of it up to a width. -/
def alignRight (width : Nat) (text : String) : String :=
  String.ofList (List.replicate (width - text.length) ' ') ++ text

/-- The samples of a hit with the names of their fields. -/
def namedSamples (fields : List String) (h : Hit) : List (String × Nat) :=
  fields.zipIdx.map fun (name, i) => (name, (h.value i).raw.toNat)

/-- A hit on a line. -/
def hitLine (fields : List String) (h : Hit) : String :=
  let samples := (namedSamples fields h).map fun (name, raw) => s!"{name}={raw}"
  s!"{alignRight 4 (toString h.source.toInt)} {alignRight 16 (toString h.time.ticks.toNat)} " ++
    " ".intercalate samples

/-- A hit as JSON; of two fields of a name the later counts. -/
def hitJson (fields : List String) (h : Hit) : Json.Value :=
  .sorted
    [("source", .integer h.source.toInt),
      ("timestamp", .count h.time.ticks.toNat),
      ("ns", .decimal h.time.ns),
      ("values", .sorted ((namedSamples fields h).map fun (name, raw) => (name, .count raw))),
      ("trace", .array (h.trace.toList.map fun w => .count w.toNat))]

/-- The lines that list hits. -/
def hitLines (json : Bool) (fields : List String) (shown : List Hit) (total : Nat) : List String :=
  if json then shown.map fun h => String.ofList (hitJson fields h).compact
  else shown.map (hitLine fields) ++ [s!"{shown.length} of {total} hits shown"]

/-! ## Spectra -/

/-- Gates as JSON. -/
def gatesJson (g : Gates) : Json.Value := .object [("gates", .array (g.gates.map .bool))]

/-- A calibration as JSON. -/
def calibrationJson (c : Calibration) : Json.Value :=
  .object
    [("kind", .string c.kind),
      ("units", .string c.units),
      ("bits", .count c.bits),
      ("coefficients", .array (c.coefficients.map .decimal))]

/-- A detector as JSON. -/
def detectorJson (d : Detector) : Json.Value :=
  .object
    [("name", .string d.name),
      ("kind", .string d.kind),
      ("calibrations", .object (d.calibrations.map fun c => (toString c.bits, calibrationJson c)))]

/-- A table of times as JSON. -/
def timesJson (table : List (SourceId × Float)) : Json.Value :=
  .object (table.map fun (source, seconds) => (toString source.toInt, .decimal seconds))

/-- Metadata as JSON. -/
def metadataJson (moment : Instant → String) (m : Metadata) : Json.Value :=
  .object
    [("name", .string m.name),
      ("kind", .string ((m.kind.map Axes.label).getD "")),
      ("dimensions", .count m.dimensions),
      ("bits", .count m.bits),
      ("add_pattern", gatesJson m.add),
      ("coinc_pattern", gatesJson m.coincidence),
      ("anti_pattern", gatesJson m.anticoincidence),
      ("coinc_window_ns", .decimal m.window),
      ("buffered", .bool m.buffered),
      ("detectors", .array (m.detectors.map detectorJson)),
      ("total_count", .count m.total),
      ("max_chan", .count m.maxBin.toNat),
      ("symmetrized", .ofOption .bool m.symmetric),
      ("live_time", timesJson m.liveTimes),
      ("real_time", timesJson m.realTimes),
      ("start_time", .ofOption (fun t => .string (moment t)) m.startTime),
      ("changed", .bool m.changed)]

/-- The lines about a spectrum that was built. -/
def spectrumLines (t : TimeTexts) (json : Bool) (summary : Session.Summary) (s : Spectrum)
    (formats : List String) (out : String) : List String :=
  if json then (metadataJson t.moment s.metadata).lines
  else
    [s!"Processed {summary.delivered} spills ({summary.hits} hits) in {t.seconds}s",
      s!"Events histogrammed: {s.metadata.total}"] ++
    (s.checkSymmetry.1.map fun b => s!"Symmetric: {b}").toList ++
    ["Wrote " ++ ", ".intercalate formats ++ " to " ++ out]

/-- The lines of a report. -/
def lines (t : TimeTexts) : Report → List String
  | .version => ["specdaq 0.4.0"]
  | .dump name bytes scan decoded =>
    scanLines name bytes scan ++ decoded.elim [] (decodedLines t)
  | .hits json fields shown total => hitLines json fields shown total
  | .spectrum json summary s formats out => spectrumLines t json summary s formats out
  | .files paths => paths.map ("Wrote " ++ ·)

/-- A text without a carriage return at its end. -/
def dropReturn (text : String) : String := if text.endsWith "\r" then (text.dropEnd 1).toString else text

/-- The lines that the printed report shows.  A line feed in a name ends a line
too, and a carriage return before the end of a line belongs to the end. -/
def shownLines (t : TimeTexts) (r : Report) : List String :=
  (r.lines t).flatMap fun line => (line.splitOn "\n").map dropReturn

end Report

end ListMode.Command
