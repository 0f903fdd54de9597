/-!
# Digitized values

A digitized value is a sample together with the number of bits it was sampled
at.  The sample never has more bits than declared (`Digitized.ofRaw` cuts it),
and it can be read at any other resolution: a narrower reading drops low bits,
a wider one pads with zero bits (`Digitized.rescale`).
-/

namespace ListMode

/-- A sample and its declared width in bits. -/
structure Digitized where
  /-- The sample. -/
  raw : UInt16
  /-- The declared width. -/
  bits : Nat
deriving DecidableEq, Repr, Inhabited

namespace Digitized

/-- The value of a raw sample, cut to its declared width. -/
def ofRaw (raw : UInt16) (bits : Nat) : Digitized :=
  ⟨UInt16.ofNat (raw.toNat % 1 <<< min bits 16), bits⟩

/-- The value with another sample, cut to the same width. -/
def set (v : Digitized) (raw : UInt16) : Digitized := ofRaw raw v.bits

/-- The sample read at another width: low bits are dropped, or zero bits are
added and the result held at the largest word. -/
def rescale (v : Digitized) (bits : Nat) : UInt16 :=
  if bits ≤ v.bits then UInt16.ofNat (v.raw.toNat >>> (v.bits - bits))
  else UInt16.ofNat (min (v.raw.toNat <<< min (bits - v.bits) 16) 0xFFFF)

@[simp] theorem rescale_self (v : Digitized) : v.rescale v.bits = v.raw := by
  simp [rescale]

end Digitized

example : (Digitized.ofRaw 0xABCD 16).rescale 8 = 0xAB := by decide
example : (Digitized.ofRaw 0x3F 8).rescale 10 = 0xFC := by decide
example : (Digitized.ofRaw 3 1).raw = 1 := by decide

end ListMode
