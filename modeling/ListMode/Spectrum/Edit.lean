import ListMode.Spectrum.Files

/-!
# Spectra changed in place

A spectrum in use is changed in steps: an edit reads the spectrum, checks what it was
given and replaces one part after the other.  A fault ends the edit at that step, and
what was replaced before it stays replaced.

Metadata that come from a file are made up apart, as a draft, and put in place at the
end; the counts are replaced as soon as the file was read.
-/

namespace ListMode

/-- A change of a spectrum in steps, which a fault ends where it is met. -/
abbrev Edit (α : Type) := ExceptT SpectrumFault (StateM Spectrum) α

/-- The fault of a text that is no listing. -/
def ListingFault.onSpectrum : ListingFault → SpectrumFault
  | .token fault => .token fault
  | .notText => .notText

namespace Edit

/-- What an edit gives on a spectrum, and the spectrum it leaves. -/
def on {α : Type} (e : Edit α) (s : Spectrum) : Except SpectrumFault α × Spectrum :=
  StateT.run (ExceptT.run e) s

/-! ## Steps -/

/-- Ends an edit with a fault, when there is one. -/
def check : Option SpectrumFault → Edit Unit
  | some fault => throw fault
  | none => pure ()

/-- The result of a computation, whose fault ends the edit. -/
def orFault {ε α : Type} (fault : ε → SpectrumFault) : Except ε α → Edit α
  | .ok a => pure a
  | .error e => throw (fault e)

/-- Replaces the counts, and with them the cells touched. -/
def replaceCounts (counts : Counts) : Edit Unit := modify fun s => { s with counts }

/-- Replaces the metadata by a function of them. -/
def describe (f : Metadata → Metadata) : Edit Unit :=
  modify fun s => { s with metadata := f s.metadata }

/-- Lets go of open events; those to come are grouped in a window. -/
def regroup (window : Float) : Edit Unit :=
  modify fun s => { s with builder := .ofWindow window }

/-- Takes spills from now on. -/
def start : Edit Unit := modify fun s => { s with ready := true }

/-! ## Edits -/

/-- Sets a spectrum up with no counts. -/
def setUp (m : Metadata) : Edit Unit := do
  let axes := (← get).axes
  check (Spectrum.setupFault? axes m)
  let draft : Metadata :=
    { m with
      kind := some axes
      detectors := Metadata.resizeDetectors axes.dimensions m.detectors }
  replaceCounts (.zero axes)
  regroup draft.window
  describe fun _ => draft
  start

/-- Replaces the counts by those of a run-length text, and gives the largest number it
names. -/
def readCounts (text : List Char) : Edit Bin := do
  let (counts, maxBin) ← orFault .token (Counts.ofText (← get).axes text)
  replaceCounts counts
  return maxBin

/-- Replaces the counts by those of a run-length text and counts the total anew. -/
def readText (text : List Char) : Edit Bin := do
  let maxBin ← readCounts text
  let total := (← get).counts.total
  describe fun m => { m with maxBin }
  describe fun m => { m with total }
  describe fun m => { m with symmetric := none }
  describe fun m => { m with changed := true }
  return maxBin

/-- Replaces the counts by those of a listing, and gives the metadata it comes with. -/
def readListing (draft : Metadata) (fileName : String)
    (contents : Except FolderFault ByteArray) : Edit Metadata := do
  let bytes ← orFault .file contents
  let l ← orFault ListingFault.onSpectrum (Listing.read bytes.data.toList)
  replaceCounts (.line l.cells)
  return Spectrum.listingMetadata draft fileName l

/-- Replaces the counts by those of a grid, and gives the metadata it comes with. -/
def readGrid (draft : Metadata) (fileName : String) (width : CellWidth)
    (contents : Except FolderFault ByteArray) : Edit Metadata := do
  let bytes ← orFault .file contents
  let (cells, side) ← orFault .grid (Dense.read bytes width)
  replaceCounts (.plane cells ∅)
  return Spectrum.gridMetadata draft fileName cells side

/-- Replaces the counts by those of a file of a format, and gives the metadata it comes
with; nothing for a format the spectrum cannot be read from. -/
def readFile (draft : Metadata) (fileName format : String)
    (contents : Except FolderFault ByteArray) : Edit (Option Metadata) := do
  match (← get).axes, FileFormat.ofName? format with
  | .one, some .listing => some <$> readListing draft fileName contents
  | .two, some (.grid width) => some <$> readGrid draft fileName width contents
  | _, _ => return none

/-- Reads a file into a spectrum, and says whether there is a reader for its format. -/
def load (fileName format : String) (contents : Except FolderFault ByteArray) : Edit Bool := do
  let draft := (← get).metadata
  match ← readFile draft fileName format contents with
  | none => return false
  | some draft =>
    regroup draft.window
    describe fun _ => draft
    start
    return true

end Edit

end ListMode
