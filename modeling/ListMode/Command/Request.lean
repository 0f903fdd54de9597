import ListMode.Command.Arguments
import ListMode.Decimal.Read
import ListMode.Text.Integer

/-!
# Requests

What the program can be asked for: to inspect a dump, to list its hits, to build
a spectrum from it, or to convert the file of a spectrum.  A command line that
asks for none of these, or not in its form, is no request.
-/

namespace ListMode.Command

/-- How a spectrum is built from a dump. -/
structure SpectrumRequest where
  /-- The file of the dump. -/
  input : String
  /-- The channels, one for each axis. -/
  channels : List Nat
  /-- The resolution in bits. -/
  bits : Nat := 12
  /-- The file of the decoder settings. -/
  settings : Option String := none
  /-- The coincidence window in nanoseconds. -/
  window : Float := 50.0
  /-- Range reads give the cells touched since the one before. -/
  buffered : Bool := false
  /-- The name of the spectrum. -/
  name : String := "coinc"
  /-- The folder to write into. -/
  out : String
  /-- The formats to write. -/
  formats : List String := ["m4b"]
  /-- The size of a raw spill in words. -/
  spillWords : Option Nat := none
  /-- The depth of the queues. -/
  queueDepth : Nat := 4
  /-- The fraction of the free memory that caps the depth. -/
  memoryFraction : Option Float := none
  /-- The metadata is shown as JSON. -/
  json : Bool := false

/-- What the program is asked for. -/
inductive Request where
  /-- The version. -/
  | version
  /-- The records, events and hits of a dump, in numbers. -/
  | inspect (input : String) (settings : Option String)
  /-- The first hits of a dump. -/
  | list (input : String) (settings : Option String) (limit : Nat) (json : Bool)
  /-- A spectrum of a dump, written to files. -/
  | build (r : SpectrumRequest)
  /-- The file of a spectrum, written in other formats. -/
  | convert (input format : String) (formats : List String) (out : String)

namespace Request

/-! ## Rules for values -/

/-- A path, which must not be empty. -/
def path? (text : String) : Option String := if text = "" then none else some text

/-- A number of things. -/
def count? (text : String) : Option Nat := Text.natural? 64 text.toList

/-- A number of bits; zero may have a minus sign. -/
def bits? (text : String) : Option Nat :=
  match text.toList with
  | '-' :: digits =>
    if digits.isEmpty then none else Text.digitsBelow? 1 0 digits
  | text => Text.natural? 16 text

/-- A decimal number. -/
def decimal? (text : String) : Option Float := Decimal.read? text.toList

/-! ## Commands -/

/-- How much is reported on the way; it may be given often. -/
def verbosity : Switch := .flag "verbose" 'v'

/-- The option that names the decoder settings. -/
def settingsSwitch : Switch := .value "topology" 't'

/-- The option that names the folder to write into. -/
def outSwitch : Switch := .value "out" 'o'

/-- The option that asks for JSON. -/
def jsonSwitch : Switch := .flag "json"

/-- The one operand, which is a path. -/
def input? (arguments : List Argument) : Option String :=
  match operands arguments with
  | [text] => path? text
  | _ => none

/-- The file of the decoder settings. -/
def settings? (arguments : List Argument) : Option (Option String) :=
  atMostOnce? path? settingsSwitch.name arguments

/-- Reads the words behind `info`. -/
def inspect? (words : List String) : Option Request := do
  let arguments ← read [verbosity, settingsSwitch] words
  return .inspect (← input? arguments) (← settings? arguments)

/-- Reads the words behind `decode`. -/
def list? (words : List String) : Option Request := do
  let arguments ← read [verbosity, settingsSwitch, .value "limit" 'l', jsonSwitch] words
  let limit ← atMostOnce? count? "limit" arguments
  return .list (← input? arguments) (← settings? arguments) (limit.getD 20)
    (← given? jsonSwitch.name arguments)

/-- The options of `histogram`. -/
def buildSwitches : List Switch :=
  [verbosity, settingsSwitch, outSwitch, jsonSwitch,
    .value "channels" 'c',
    .value "bits" 'b',
    .value "window-ns",
    .flag "buffered",
    .value "name" 'n',
    .value "format" 'f',
    .value "spill-words",
    .value "queue-depth",
    .value "memory-fraction"]

/-- Reads the words behind `histogram`. -/
def build? (words : List String) : Option Request := do
  let arguments ← read buildSwitches words
  let channels ← (listed "channels" arguments).mapM count?
  if channels.isEmpty then none
  let plain : SpectrumRequest :=
    { input := ← input? arguments
      channels
      out := ← once? path? outSwitch.name arguments }
  let formats := listed "format" arguments
  return .build
    { plain with
      bits := (← atMostOnce? bits? "bits" arguments).getD plain.bits
      settings := ← settings? arguments
      window := (← atMostOnce? decimal? "window-ns" arguments).getD plain.window
      buffered := ← given? "buffered" arguments
      name := (← atMostOnce? some "name" arguments).getD plain.name
      formats := if formats.isEmpty then plain.formats else formats
      spillWords := ← atMostOnce? count? "spill-words" arguments
      queueDepth := (← atMostOnce? count? "queue-depth" arguments).getD plain.queueDepth
      memoryFraction := ← atMostOnce? decimal? "memory-fraction" arguments
      json := ← given? jsonSwitch.name arguments }

/-- Reads the words behind `convert`. -/
def convert? (words : List String) : Option Request := do
  let arguments ← read [verbosity, outSwitch, .value "from", .value "to"] words
  let formats := listed "to" arguments
  if formats.isEmpty then none
  return .convert (← input? arguments) (← once? some "from" arguments) formats
    (← once? path? outSwitch.name arguments)

/-- Reads the words behind the name of a command. -/
def ofCommand? (command : String) (words : List String) : Option Request :=
  match command with
  | "info" => inspect? words
  | "decode" => list? words
  | "histogram" => build? words
  | "convert" => convert? words
  | _ => none

/-- Reads a whole command line.  In front of the name of the command only the
verbosity may stand, or a question for the version. -/
def ofWords? : List String → Option Request
  | [] => none
  | word :: rest =>
    match readWord [verbosity, { Switch.flag "version" 'V' with closing := true }] word with
    | some ([.operand command], _) => ofCommand? command rest
    | some (found, _) => if (valuesOf "version" found).isEmpty then ofWords? rest else some .version
    | none => none

example : bits? "-0" = some 0 ∧ bits? "-1" = none := by decide +kernel

end Request

end ListMode.Command
