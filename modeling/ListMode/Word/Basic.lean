/-!
# Little-endian numbers and words

List-mode data is a sequence of 16-bit words, each stored low byte first, and
every other number of the formats here is stored low byte first too.
`littleEndian` and `ofLittleEndian` are the two directions for any width.  A
buffer is read as its whole words (`Word.ofBytes`); an odd byte at the end
belongs to no word.
-/

namespace ListMode

/-! ## Numbers -/

/-- The lowest `width` bytes of a number, low byte first. -/
def littleEndian : (width : Nat) → Nat → List UInt8
  | 0, _ => []
  | width + 1, n => UInt8.ofNat n :: littleEndian width (n / 256)

/-- The number stored in a byte string, low byte first. -/
def ofLittleEndian : List UInt8 → Nat
  | [] => 0
  | b :: bs => b.toNat + 256 * ofLittleEndian bs

/-- The first `n` bytes of a byte string and the bytes after them, or nothing
when there are fewer. -/
def splitBytes? (n : Nat) (bytes : List UInt8) : Option (List UInt8 × List UInt8) :=
  let front := bytes.take n
  if front.length = n then some (front, bytes.drop n) else none

/-! ## Words -/

namespace Word

/-- The word with the given low and high byte. -/
def decode (lo hi : UInt8) : UInt16 := UInt16.ofNat (ofLittleEndian [lo, hi])

/-- The two bytes of a word, low byte first. -/
def encode (w : UInt16) : List UInt8 := littleEndian 2 w.toNat

/-- The bytes of a list of words. -/
def toBytes (ws : List UInt16) : List UInt8 := ws.flatMap encode

/-- The whole words of a byte string. -/
def ofBytes (bytes : List UInt8) : List UInt16 := go [] bytes
where
  /-- Collects the words of the remaining bytes behind those already read. -/
  go (read : List UInt16) : List UInt8 → List UInt16
    | lo :: hi :: rest => go (decode lo hi :: read) rest
    | _ => read.reverse

end Word

example : Word.decode 0x34 0x12 = 0x1234 := by decide
example : Word.ofBytes [0x34, 0x12, 0x78, 0x56, 0xFF] = [0x1234, 0x5678] := by decide
example : littleEndian 4 0x01020304 = [4, 3, 2, 1] := by decide
example : ofLittleEndian [4, 3, 2, 1] = 0x01020304 := by decide

end ListMode
