/-!
# Texts in bytes

A text is stored as the UTF-8 bytes of its characters.  `ofUtf8?` reads bytes
that hold a text and nothing else.  `ofUtf8` reads any bytes: where no character
can be read it puts a replacement character, one for each start of a character
that breaks off and one for each byte that cannot start any.  On bytes that hold
a text the two agree (`ofUtf8_of_ofUtf8?`).
-/

namespace ListMode.Text

/-- The characters of a byte string, when it is valid UTF-8. -/
def ofUtf8? (bytes : List UInt8) : Option (List Char) :=
  (String.fromUTF8? ⟨bytes.toArray⟩).map String.toList

/-! ## Reading byte by byte -/

/-- The start of a character that takes more than one byte. -/
structure Opening where
  /-- The bits of the character so far. -/
  bits : Nat
  /-- The number of bytes to come. -/
  missing : Nat
  /-- The lowest byte that can be next. -/
  low : Nat := 0x80
  /-- The highest byte that can be next. -/
  high : Nat := 0xBF
deriving DecidableEq, Repr

/-- What a byte is as the first byte of a character. -/
inductive Lead where
  /-- The whole character. -/
  | whole (c : Char)
  /-- The start of a longer one. -/
  | opening (o : Opening)
  /-- No character starts with it. -/
  | none
deriving DecidableEq, Repr

/-- What a byte is as the first byte of a character.  After some first bytes the
second is bounded further: a character has one spelling only, surrogates have
none, and no character lies above the last. -/
def Lead.ofByte (b : UInt8) : Lead :=
  let n := b.toNat
  if n < 0x80 then .whole (Char.ofNat n)
  else if n < 0xC2 then .none
  else if n < 0xE0 then .opening { bits := n - 0xC0, missing := 1 }
  else if n < 0xF0 then
    .opening
      { bits := n - 0xE0
        missing := 2
        low := if n = 0xE0 then 0xA0 else 0x80
        high := if n = 0xED then 0x9F else 0xBF }
  else if n < 0xF5 then
    .opening
      { bits := n - 0xF0
        missing := 3
        low := if n = 0xF0 then 0x90 else 0x80
        high := if n = 0xF4 then 0x8F else 0xBF }
  else .none

/-- Stands for what could not be read. -/
def replacement : Char := '\ufffd'

/-- A text that is being read. -/
structure Transcript where
  /-- The characters read, last first. -/
  read : List Char := []
  /-- The start of the character that comes next. -/
  opening : Option Opening := .none
deriving DecidableEq, Repr

namespace Transcript

/-- Reads the first byte of a character behind the given ones. -/
def start (read : List Char) (b : UInt8) : Transcript :=
  match Lead.ofByte b with
  | .whole c => { read := c :: read }
  | .opening o => { read, opening := some o }
  | .none => { read := replacement :: read }

/-- Reads a byte.  One that cannot go on with the character that was started
breaks it off and starts the next. -/
def next (t : Transcript) (b : UInt8) : Transcript :=
  match t.opening with
  | none => start t.read b
  | some o =>
    if o.low ≤ b.toNat ∧ b.toNat ≤ o.high then
      let bits := o.bits * 64 + (b.toNat - 0x80)
      if o.missing = 1 then { read := Char.ofNat bits :: t.read }
      else { t with opening := some { bits, missing := o.missing - 1 } }
    else start (replacement :: t.read) b

/-- The text at the end of the bytes. -/
def text (t : Transcript) : List Char :=
  (if t.opening.isSome then replacement :: t.read else t.read).reverse

end Transcript

/-- The characters of a byte string, with replacement characters where there are
none. -/
def ofUtf8 (bytes : List UInt8) : List Char := (bytes.foldl Transcript.next {}).text

/-! ## Bytes that hold a text -/

theorem toNat_ofNat {n : Nat} (h : n < 0x100) : (UInt8.ofNat n).toNat = n :=
  UInt8.toNat_ofNat_of_lt' h

theorem lead_two {n : Nat} (h : 0xC2 ≤ n) (h' : n < 0xE0) :
    Lead.ofByte (UInt8.ofNat n) = .opening { bits := n - 0xC0, missing := 1 } := by
  simp only [Lead.ofByte, toNat_ofNat (show n < 0x100 by omega)]
  rw [if_neg (by omega), if_neg (by omega), if_pos h']

theorem lead_three {n : Nat} (h : 0xE0 ≤ n) (h' : n < 0xF0) :
    Lead.ofByte (UInt8.ofNat n) =
      .opening
        { bits := n - 0xE0
          missing := 2
          low := if n = 0xE0 then 0xA0 else 0x80
          high := if n = 0xED then 0x9F else 0xBF } := by
  simp only [Lead.ofByte, toNat_ofNat (show n < 0x100 by omega)]
  rw [if_neg (by omega), if_neg (by omega), if_neg (by omega), if_pos h']

theorem lead_four {n : Nat} (h : 0xF0 ≤ n) (h' : n < 0xF5) :
    Lead.ofByte (UInt8.ofNat n) =
      .opening
        { bits := n - 0xF0
          missing := 3
          low := if n = 0xF0 then 0x90 else 0x80
          high := if n = 0xF4 then 0x8F else 0xBF } := by
  simp only [Lead.ofByte, toNat_ofNat (show n < 0x100 by omega)]
  rw [if_neg (by omega), if_neg (by omega), if_neg (by omega), if_neg (by omega), if_pos h']

namespace Transcript

theorem next_lead {read : List Char} {b : UInt8} {o : Opening} (h : Lead.ofByte b = .opening o) :
    next { read } b = { read, opening := some o } := by
  simp only [next, start, h]

/-- A byte in the range of the next one adds six bits. -/
theorem next_more {read : List Char} {o : Opening} {k : Nat} (hk : k < 64)
    (hlow : o.low ≤ k + 128) (hhigh : k + 128 ≤ o.high) (hmissing : o.missing ≠ 1) :
    next { read, opening := some o } (UInt8.ofNat (k + 128)) =
      { read, opening := some { bits := o.bits * 64 + k, missing := o.missing - 1 } } := by
  simp only [next, toNat_ofNat (show k + 128 < 0x100 by omega)]
  rw [if_pos ⟨hlow, hhigh⟩, if_neg hmissing, Nat.add_sub_cancel]

/-- The last byte gives the character. -/
theorem next_last {read : List Char} {o : Opening} {k : Nat} (hk : k < 64)
    (hlow : o.low ≤ k + 128) (hhigh : k + 128 ≤ o.high) (hmissing : o.missing = 1) :
    next { read, opening := some o } (UInt8.ofNat (k + 128)) =
      { read := Char.ofNat (o.bits * 64 + k) :: read } := by
  simp only [next, toNat_ofNat (show k + 128 < 0x100 by omega)]
  rw [if_pos ⟨hlow, hhigh⟩, if_pos hmissing, Nat.add_sub_cancel]

/-- The bytes of a character are read as that character. -/
theorem foldl_next_utf8EncodeChar (read : List Char) (c : Char) :
    (String.utf8EncodeChar c).foldl next { read } = { read := c :: read } := by
  have hvalid : c.toNat < 0xD800 ∨ 0xDFFF < c.toNat ∧ c.toNat < 0x110000 := c.valid
  have hchar : ∀ {n : Nat}, n = c.toNat → Char.ofNat n = c := fun h => h ▸ Char.ofNat_toNat c
  have hval : c.val.toNat = c.toNat := rfl
  simp only [String.utf8EncodeChar, hval]
  generalize c.toNat = v at hvalid hchar
  split
  · next h =>
    simp only [List.foldl_cons, List.foldl_nil, next, start, Lead.ofByte,
      toNat_ofNat (show v < 0x100 by omega)]
    rw [if_pos (by omega), hchar rfl]
  split
  · simp only [List.foldl_cons, List.foldl_nil]
    rw [next_lead (lead_two (by omega) (by omega)),
      next_last (by omega) (by show 0x80 ≤ _; omega) (by show _ ≤ 0xBF; omega) rfl,
      hchar (by show (_ - 0xC0) * 64 + _ = _; omega)]
  split
  · simp only [List.foldl_cons, List.foldl_nil]
    rw [next_lead (lead_three (by omega) (by omega)),
      next_more (by omega) (by dsimp only; split <;> omega) (by dsimp only; split <;> omega)
        (show (2 : Nat) ≠ 1 by decide),
      next_last (by omega) (by show 0x80 ≤ _; omega) (by show _ ≤ 0xBF; omega) rfl,
      hchar (by dsimp only; omega)]
  · simp only [List.foldl_cons, List.foldl_nil]
    rw [next_lead (lead_four (by omega) (by omega)),
      next_more (by omega) (by dsimp only; split <;> omega) (by dsimp only; split <;> omega)
        (show (3 : Nat) ≠ 1 by decide),
      next_more (by omega) (by show 0x80 ≤ _; omega) (by show _ ≤ 0xBF; omega)
        (show (2 : Nat) ≠ 1 by decide),
      next_last (by omega) (by show 0x80 ≤ _; omega) (by show _ ≤ 0xBF; omega) rfl,
      hchar (by dsimp only; omega)]

theorem foldl_next_utf8 (read cs : List Char) :
    (cs.flatMap String.utf8EncodeChar).foldl next { read } = { read := cs.reverse ++ read } := by
  induction cs generalizing read with
  | nil => rfl
  | cons c cs ih =>
    rw [List.flatMap_cons, List.foldl_append, foldl_next_utf8EncodeChar, ih]
    simp

end Transcript

/-- The bytes of a text are read as that text. -/
theorem ofUtf8_flatMap (cs : List Char) : ofUtf8 (cs.flatMap String.utf8EncodeChar) = cs := by
  rw [ofUtf8, Transcript.foldl_next_utf8]
  simp [Transcript.text]

/-- Bytes that hold a text are read as that text. -/
theorem ofUtf8_of_ofUtf8? {bytes : List UInt8} {cs : List Char} (h : ofUtf8? bytes = some cs) :
    ofUtf8 bytes = cs := by
  obtain ⟨s, hs, rfl⟩ := Option.map_eq_some_iff.1 h
  have hdata : s.toByteArray = ⟨bytes.toArray⟩ := by
    rw [String.fromUTF8?] at hs
    split at hs
    · exact (Option.some.inj hs) ▸ rfl
    · cases hs
  have hbytes : bytes = s.toList.flatMap String.utf8EncodeChar := by
    have := congrArg (·.data.toList) (String.utf8Encode_toList.trans hdata)
    simpa [List.utf8Encode] using this.symm
  rw [hbytes, ofUtf8_flatMap]

example : ofUtf8 [0x61, 0xE2, 0x82, 0x61] = ['a', replacement, 'a'] := by decide
example : ofUtf8 [0xED, 0xA0, 0x80] = [replacement, replacement, replacement] := by decide
example : ofUtf8 [0xF0, 0x9F, 0x98] = [replacement] := by decide

end ListMode.Text
