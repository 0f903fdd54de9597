import ListMode.Hit.Basic
import ListMode.Word.Basic

/-!
# The binary hit stream

Hits are stored back to back, each as its source id (two bytes), its ticks
(eight bytes), its field samples and its waveform samples (two bytes each), all
little-endian.  Widths and waveform lengths are not stored: a reader takes them
from the model of the source channel.

`Hit.read` reads one hit off a byte string.  A string too short for a source id
is the end of the stream, one that ends later inside a hit is cut short.
-/

namespace ListMode.Hit

/-! ## Writing -/

/-- The bytes of one hit. -/
def toBytes (h : Hit) : List UInt8 :=
  Word.encode h.source.toUInt16 ++ littleEndian 8 h.time.ticks.toNat ++
    h.values.flatMap (Word.encode ·.raw) ++ h.trace.toList.flatMap Word.encode

/-- The bytes of a list of hits. -/
def streamOf (hits : List Hit) : List UInt8 := hits.flatMap toBytes

/-! ## Reading -/

/-- Why a hit could not be read. -/
inductive StreamError where
  /-- The stream names a source channel that has no model. -/
  | noModel (source : SourceId)
  /-- The stream ends inside a hit. -/
  | cutShort
deriving DecidableEq, Repr

/-- The words for a stream error. -/
def StreamError.message : StreamError → String
  | .noModel c => s!"configuration error: no hit model for channel {c.toInt}"
  | .cutShort => "I/O error: failed to fill whole buffer"

/-- The first `n` words of a byte string and the bytes after them. -/
def readWords? (n : Nat) (bytes : List UInt8) : Option (List UInt16 × List UInt8) :=
  (splitBytes? (2 * n) bytes).map fun (front, rest) => (Word.ofBytes front, rest)

/-- What follows the source id of a hit with the given model. -/
def readBody? (source : SourceId) (m : HitModel) (bytes : List UInt8) :
    Option (Hit × List UInt8) := do
  let (ticks, bytes) ← splitBytes? 8 bytes
  let (samples, bytes) ← readWords? m.fields.length bytes
  let (trace, bytes) ← readWords? m.traceLength bytes
  let values := List.zipWith (fun f w => Digitized.ofRaw w f.bits) m.fields samples
  return (⟨source, ⟨UInt64.ofNat (ofLittleEndian ticks), m.base⟩, values, .ofList trace⟩, bytes)

/-- Reads one hit and gives the bytes after it, or nothing at the end. -/
def read (models : SourceId → Option HitModel) :
    List UInt8 → Except StreamError (Option (Hit × List UInt8))
  | lo :: hi :: rest =>
    let source := (Word.decode lo hi).toInt16
    match models source with
    | none => .error (.noModel source)
    | some m =>
      match readBody? source m rest with
      | none => .error .cutShort
      | some hit => .ok (some hit)
  | _ => .ok none

/-- What reading a whole stream gives: the hits in front, and the error that
stopped the reading when it did not reach the end. -/
structure StreamReading where
  /-- The hits read. -/
  hits : List Hit
  /-- Why reading stopped before the end. -/
  stoppedBy : Option StreamError
deriving DecidableEq, Repr

/-- Reads hits until the stream ends or one cannot be read; `fuel` bounds the
number of hits. -/
def readUpTo (models : SourceId → Option HitModel) : (fuel : Nat) → List UInt8 → StreamReading
  | 0, _ => ⟨[], none⟩
  | fuel + 1, bytes =>
    match read models bytes with
    | .error e => ⟨[], some e⟩
    | .ok none => ⟨[], none⟩
    | .ok (some (h, rest)) =>
      let r := readUpTo models fuel rest
      { r with hits := h :: r.hits }

/-- Reads a whole stream.  Every hit takes at least ten bytes, so the length of
the stream is more than enough fuel. -/
def readAll (models : SourceId → Option HitModel) (bytes : List UInt8) : StreamReading :=
  readUpTo models (bytes.length + 1) bytes

end ListMode.Hit
