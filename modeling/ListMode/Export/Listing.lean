import ListMode.Decimal.Fixed
import ListMode.Decimal.Read
import ListMode.Export.RunLength
import ListMode.Text.Lines
import ListMode.Text.Utf8

/-!
# Listings

A one-axis spectrum as a list of lines: the live time, the real time, and then
the count of every bin from zero to the largest one.  Times are written as whole
seconds.

A reader passes over blank lines but counts them, so the first two lines of the
text are the times wherever a blank line stands, and the bins are numbered by
the lines after them that are not blank.
-/

namespace ListMode

/-- A one-axis spectrum as a listing has it. -/
structure Listing where
  /-- The live time in seconds. -/
  liveTime : Float := 0.0
  /-- The real time in seconds. -/
  realTime : Float := 0.0
  /-- The bins with a count that is not zero. -/
  cells : Cells Bin := ∅
  /-- The last bin listed. -/
  lastBin : Bin := 0

/-- Why a text is no listing. -/
inductive ListingFault where
  /-- A line is no number, or lists a bin past the last one. -/
  | token (fault : TokenFault)
  /-- A line is not valid text. -/
  | notText
deriving DecidableEq, Repr

namespace Listing

/-! ## Writing -/

/-- The counts of the bins from `bin` up to, and not with, `stop`. -/
def countsFrom (bin stop : Nat) : List (Bin × Nat) → List Nat
  | [] => List.replicate (stop - bin) 0
  | (j, n) :: rest =>
    if j.toNat < stop then
      List.replicate (j.toNat - bin) 0 ++ n :: countsFrom (j.toNat + 1) stop rest
    else List.replicate (stop - bin) 0

/-- The lines of a listing. -/
def lines (l : Listing) : List (List Char) :=
  Decimal.fixed 0 l.liveTime :: Decimal.fixed 0 l.realTime ::
    (countsFrom 0 (l.lastBin.toNat + 1) l.cells.entries).map Text.decimal

/-- The text of a listing. -/
def write (l : Listing) : String := String.ofList (l.lines.flatMap (· ++ ['\n']))

/-! ## Reading -/

/-- A listing as far as it was read. -/
structure Progress where
  /-- The live time. -/
  liveTime : Float := 0.0
  /-- The real time. -/
  realTime : Float := 0.0
  /-- The bins that were listed with a count, last first. -/
  entries : List (Bin × Nat) := []
  /-- The number of bins listed. -/
  bins : Nat := 0

/-- Reads the token of a line. -/
def readToken (p : Progress) (line : Nat) (token : List Char) : Except TokenFault Progress :=
  let fault : TokenFault := ⟨line, token⟩
  if line = 0 then
    match Decimal.read? token with
    | some liveTime => .ok { p with liveTime }
    | none => .error fault
  else if line = 1 then
    match Decimal.read? token with
    | some realTime => .ok { p with realTime }
    | none => .error fault
  else
    match Text.natural? 64 token with
    | none => .error fault
    | some n =>
      if p.bins < UInt16.size then
        .ok { p with
          entries := if n = 0 then p.entries else (UInt16.ofNat p.bins, n) :: p.entries
          bins := p.bins + 1 }
      else .error fault

/-- Reads one line. -/
def readLine (p : Progress) (line : Nat) (bytes : List UInt8) : Except ListingFault Progress :=
  match Text.ofUtf8? bytes with
  | none => .error .notText
  | some text =>
    let token := Text.trim text
    if token.isEmpty then .ok p
    else
      match readToken p line token with
      | .ok p => .ok p
      | .error f => .error (.token f)

/-- Reads lines, the first of which has the given number. -/
def readLines (p : Progress) (line : Nat) : List (List UInt8) → Except ListingFault Progress
  | [] => .ok p
  | bytes :: rest =>
    match readLine p line bytes with
    | .ok p => readLines p (line + 1) rest
    | .error f => .error f

/-- The listing of lines that were read to the end. -/
def Progress.listing (p : Progress) : Listing where
  liveTime := p.liveTime
  realTime := p.realTime
  cells := Cells.ofEntries p.entries.reverse
  lastBin := UInt16.ofNat (p.bins - 1)

/-- Reads a listing. -/
def read (bytes : List UInt8) : Except ListingFault Listing :=
  (readLines {} 0 (Text.lines bytes)).map Progress.listing

end Listing

end ListMode
