import ListMode.Word.Basic
import ListMode.Record.Header

/-!
# Record boundaries

Records can be found without decoding them: every record starts with its own
length in words.  A scan cuts the front of a byte string into records and says
why it stopped.  Offsets count bytes from the start of the byte string.
-/

namespace ListMode

/-- Where a record lies in a byte string. -/
structure RecordSpan where
  /-- The offset of its first byte. -/
  start : Nat
  /-- The offset behind its last byte. -/
  stop : Nat
  /-- The module it was read from. -/
  module : UInt16
deriving DecidableEq, Repr

/-- The length of a record in bytes. -/
def RecordSpan.byteLength (r : RecordSpan) : Nat := r.stop - r.start

/-- Why a scan stopped. -/
inductive ScanStop where
  /-- No word is left to start another record. -/
  | complete
  /-- A zero stands in place of a record's length. -/
  | endMarker
  /-- A record's length is out of range. -/
  | badLength (offset words : Nat)
  /-- The data ends inside a record. -/
  | truncated (offset : Nat)
deriving DecidableEq, Repr

/-- What a scan found. -/
structure Scan where
  /-- The records, in order. -/
  records : List RecordSpan
  /-- The offset behind the last record. -/
  consumed : Nat
  /-- Why the scan stopped. -/
  stop : ScanStop
deriving DecidableEq, Repr

namespace Scan

/-- Scans a byte string that lies `offset` bytes into the data.  No record may
be longer than `limit` words. -/
def scanFrom (limit offset : Nat) : List UInt8 → Scan
  | lo :: hi :: rest =>
    let words := (Word.decode lo hi).toNat
    if words = 0 then ⟨[], offset, .endMarker⟩
    else if words < recordHeaderWords ∨ limit < words then ⟨[], offset, .badLength offset words⟩
    else
      let body := rest.take (2 * words - 2)
      if body.length < 2 * words - 2 then ⟨[], offset, .truncated offset⟩
      else
        let module := match body with
          | lo :: hi :: _ => Word.decode lo hi
          | _ => 0
        let tail := scanFrom limit (offset + 2 * words) (rest.drop (2 * words - 2))
        { tail with records := ⟨offset, offset + 2 * words, module⟩ :: tail.records }
  | _ => ⟨[], offset, .complete⟩
termination_by bytes => bytes.length
decreasing_by
  simp only [List.length_cons, List.length_drop]
  omega

/-- Scans a byte string. -/
def scan (limit : Nat) (bytes : List UInt8) : Scan := scanFrom limit 0 bytes

example : scan 8192 [6, 0, 2, 0, 0, 1, 0, 0, 0, 0, 0, 0, 0, 0] =
    ⟨[⟨0, 12, 2⟩], 12, .endMarker⟩ := by
  decide +kernel

end Scan

end ListMode
