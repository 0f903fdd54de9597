import ListMode.Command.Run
import ListMode.Command.Timing
import Std.Time.DateTime.Timestamp

/-!
# The program

Carries out the request of a command line: takes the files it may touch into a
folder, runs it, writes what was changed and prints the report.  The program
ends with 2 when the command line is no request, and else with the number of the
outcome.
-/

namespace ListMode.Command

/-- What is said about a command line that is no request. -/
def usage : List String :=
  ["usage: specdaq [-v] info INPUT [-t FILE]",
    "       specdaq [-v] decode INPUT [-t FILE] [-l LIMIT] [--json]",
    "       specdaq [-v] histogram INPUT -c CHANNELS -o DIR [-b BITS] [-t FILE] [-n NAME]",
    "               [-f FORMATS] [--window-ns NS] [--buffered] [--spill-words WORDS]",
    "               [--queue-depth DEPTH] [--memory-fraction FRACTION] [--json]",
    "       specdaq [-v] convert INPUT --from FORMAT --to FORMATS -o DIR",
    "       specdaq --version"]

/-- Takes what lies on a path into a folder; `place` is where the part of the
path leads that was gone. -/
def takeUp (f : Folder) (place : Place) : (rest : FolderPath) → IO Folder
  | [] => pure f
  | name :: rest =>
    match Folder.follow place name with
    | .error _ => pure f
    | .ok place =>
      if (f.find? place).isSome then takeUp f place rest
      else do
        let found ← try
            pure (some (.file (← IO.FS.readBinFile (Folder.text place))))
          catch
            | .inappropriateType .. => pure (some .folder)
            | _ => pure none
        takeUp (found.elim f (f.put place)) place rest

/-- Brings a change of a folder to the disk. -/
def bring (change : Place × FolderEntry) : IO Unit :=
  match change with
  | (place, .file contents) => IO.FS.writeBinFile (Folder.text place) contents
  | (place, .folder) => IO.FS.createDirAll (Folder.text place)
  | (_, .nullDevice) => pure ()

/-- The bytes that a listing of the memory calls available. -/
def availableMemory? (listing : String) : Option Nat := do
  let line ← (listing.splitOn "\n").find? (·.startsWith "MemAvailable:")
  match Text.tokens line.toList with
  | [_, kilobytes, _] => (Text.natural? 64 kilobytes).map (· * 1024)
  | _ => none

/-- The machine the program runs on. -/
def thisMachine : IO Machine := do
  let now ← Std.Time.Timestamp.now
  let listing ← try IO.FS.readFile "/proc/meminfo" catch _ => pure ""
  return ⟨now.toSecondsSinceUnixEpoch.val, (availableMemory? listing).getD 0⟩

/-- Waits for ever. -/
def waitForever : IO Unit := do
  repeat IO.sleep 1000

/-- Carries out a request. -/
def perform (request : Request) : IO UInt32 := do
  let folder ← request.paths.foldlM (fun f path => takeUp f [] path) {}
  let machine ← thisMachine
  let start ← IO.monoNanosNow
  let outcome := request.run machine folder
  (outcome.folder.changesSince folder).forM bring
  if outcome.fault = some .endless then waitForever
  let stop ← IO.monoNanosNow
  (outcome.report.lines (.ofNanoseconds (stop - start))).forM IO.println
  outcome.fault.forM fun fault => IO.eprintln ("Error: " ++ fault.message)
  return outcome.exitCode

end ListMode.Command

/-- The program. -/
def main (words : List String) : IO UInt32 :=
  match ListMode.Command.Request.ofWords? words with
  | some request => ListMode.Command.perform request
  | none => do
    ListMode.Command.usage.forM IO.eprintln
    return 2
