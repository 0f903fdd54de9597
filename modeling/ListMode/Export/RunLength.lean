import ListMode.Spectrum.Cells
import ListMode.Text.Blank
import ListMode.Text.Integer
import ListMode.Text.Quoted

/-!
# Run-length text

The cells of a spectrum as a line of tokens.  The text is read from left to
right with a place on the axes:

* `+ N` moves `N` rows on and to column zero, with two axes only;
* `0 N` moves `N` columns on;
* any other token is the count of the cell at the place, and moves one column
  on.

Zero counts are not written, so a token `0` is always a move.  A reader takes
any spelling of a number, and so may store a zero that is spelled otherwise.
-/

namespace ListMode

/-- A token that cannot be used. -/
structure TokenFault where
  /-- The number of the token, or of its line. -/
  position : Nat
  /-- The token. -/
  token : List Char
deriving DecidableEq, Repr

/-- The words for a token fault. -/
def TokenFault.message (f : TokenFault) : String :=
  s!"invalid channel data at token {f.position}: " ++ Text.quoted f.token

namespace RunLength

open Text (decimal natural?)

/-! ## Writing -/

/-- A token and the blank behind it. -/
def token (cs : List Char) : List Char := cs ++ [' ']

/-- The move `0 N`, left out when there is nothing to move. -/
def skip (n : Nat) : List Char := if n = 0 then [] else token ['0'] ++ token (decimal n)

/-- The move `+ N`, left out when there is nothing to move. -/
def newRow (n : Nat) : List Char := if n = 0 then [] else token ['+'] ++ token (decimal n)

/-- The entries with a count that is not zero. -/
def written {κ : Type} (entries : List (κ × Nat)) : List (κ × Nat) := entries.filter (·.2 ≠ 0)

/-- The text of the bins from a column on. -/
def encodeBins (column : Nat) : List (Bin × Nat) → List Char
  | [] => []
  | (j, n) :: rest =>
    skip (j.toNat - column) ++ token (decimal n) ++ encodeBins (min (j.toNat + 1) 0xFFFF) rest

/-- The text of the points from a row and a column on. -/
def encodePoints (row column : Nat) : List (Point × Nat) → List Char
  | [] => []
  | (p, n) :: rest =>
    let column := if p.row.toNat > row then 0 else column
    newRow (p.row.toNat - row) ++ skip (p.column.toNat - column) ++ token (decimal n) ++
      encodePoints (max row p.row.toNat) (min (p.column.toNat + 1) 0xFFFF) rest

/-- The text of a one-axis spectrum. -/
def encode₁ (cells : Cells Bin) : List Char := encodeBins 0 (written cells.entries)

/-- The text of a two-axis spectrum. -/
def encode₂ (cells : Cells Point) : List Char := encodePoints 0 0 (written cells.entries)

/-! ## Reading -/

/-- A token with its number in the text. -/
abbrev Numbered := Nat × List Char

/-- The tokens of a text with their numbers. -/
def numbered (text : List Char) : List Numbered :=
  (Text.tokens text).zipIdx.map fun (t, i) => (i, t)

/-- The length of a move that a token says. -/
def lengthOf (t : Numbered) : Except TokenFault Nat :=
  match natural? 16 t.2 with
  | some n => .ok n
  | none => .error ⟨t.1, t.2⟩

/-- The count a token says. -/
def countOf (t : Numbered) : Except TokenFault Nat :=
  match natural? 64 t.2 with
  | some n => .ok n
  | none => .error ⟨t.1, t.2⟩

/-- A place on an axis as a bin; past the last bin the token in hand is at
fault. -/
def binOf (t : Numbered) (place : Nat) : Except TokenFault Bin :=
  if place < UInt16.size then .ok (UInt16.ofNat place) else .error ⟨t.1, t.2⟩

/-- Reads the tokens of a one-axis text from a column on. -/
def decodeBins (column : Nat) : List Numbered → Except TokenFault (List (Bin × Nat))
  | [] => .ok []
  | t :: rest =>
    if t.2 = ['0'] then
      match rest with
      | [] => .error ⟨t.1, []⟩
      | u :: rest => do
        let n ← lengthOf u
        decodeBins (column + n) rest
    else do
      let n ← countOf t
      let j ← binOf t column
      let entries ← decodeBins (column + 1) rest
      return (j, n) :: entries

/-- Reads the tokens of a two-axis text from a row and a column on. -/
def decodePoints (row column : Nat) : List Numbered → Except TokenFault (List (Point × Nat))
  | [] => .ok []
  | t :: rest =>
    if t.2 = ['+'] then
      match rest with
      | [] => .error ⟨t.1, []⟩
      | u :: rest => do
        let n ← lengthOf u
        decodePoints (row + n) 0 rest
    else if t.2 = ['0'] then
      match rest with
      | [] => .error ⟨t.1, []⟩
      | u :: rest => do
        let n ← lengthOf u
        decodePoints row (column + n) rest
    else do
      let n ← countOf t
      let i ← binOf t row
      let j ← binOf t column
      let entries ← decodePoints row (column + 1) rest
      return (⟨i, j⟩, n) :: entries

/-- The largest bin of a list of entries, zero when there are none. -/
def highestBin (entries : List (Bin × Nat)) : Bin := entries.foldl (fun m e => max m e.1) 0

/-- The largest number on either axis, zero when there are no entries. -/
def highestPoint (entries : List (Point × Nat)) : Bin :=
  entries.foldl (fun m e => max (max m e.1.row) e.1.column) 0

/-- The cells of a one-axis text and their largest bin. -/
def decode₁ (text : List Char) : Except TokenFault (Cells Bin × Bin) := do
  let entries ← decodeBins 0 (numbered text)
  return (Cells.ofEntries entries, highestBin entries)

/-- The cells of a two-axis text and their largest number on either axis. -/
def decode₂ (text : List Char) : Except TokenFault (Cells Point × Bin) := do
  let entries ← decodePoints 0 0 (numbered text)
  return (Cells.ofEntries entries, highestPoint entries)

example : encodePoints 0 0 [(⟨1, 2⟩, 5), (⟨1, 3⟩, 6)] = "+ 1 0 2 5 6 ".toList := by decide +kernel
example : (decodeBins 0 (numbered "0 2 5 007".toList)).toOption = some [(2, 5), (3, 7)] := by
  decide +kernel

end RunLength

end ListMode
