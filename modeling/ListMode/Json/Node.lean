/-!
# JSON texts

The syntax of JSON, read from bytes.  Reading checks the form of a text and
nothing else: a number keeps its sign, the digits of its integer part and whether
they are all of it, and a string keeps its bytes as they are written.  What they
say is decoded only where it is asked for (`Json.decodeString?`), so the strings
of a part that is skipped need not be valid text.
-/

namespace ListMode.Json

/-- A JSON value as it is written. -/
inductive Node where
  /-- The word `null`. -/
  | null
  /-- The words `true` and `false`. -/
  | bool (b : Bool)
  /-- A number: its sign, the digits of its integer part, and whether it has no
  fraction and no exponent. -/
  | number (negative : Bool) (integerPart : List UInt8) (plain : Bool)
  /-- A string, as the bytes between its quotes. -/
  | string (raw : List UInt8)
  /-- An array. -/
  | array (elements : List Node)
  /-- An object, its keys as the bytes between their quotes. -/
  | object (members : List (List UInt8 × Node))
deriving Repr, Inhabited

/-! ## Characters -/

/-- The byte of an ASCII character. -/
def byte (c : Char) : UInt8 := c.toUInt8

/-- The bytes that may stand between the parts of a text. -/
def isBlank (b : UInt8) : Bool :=
  b == byte ' ' || b == byte '\t' || b == byte '\n' || b == byte '\r'

/-- A decimal digit. -/
def isDigit (b : UInt8) : Bool := byte '0' ≤ b && b ≤ byte '9'

/-- The number a hexadecimal digit of either case stands for. -/
def hexValue? (b : UInt8) : Option Nat :=
  if isDigit b then some (b.toNat - 0x30)
  else if byte 'a' ≤ b && b ≤ byte 'f' then some (b.toNat - 0x61 + 10)
  else if byte 'A' ≤ b && b ≤ byte 'F' then some (b.toNat - 0x41 + 10)
  else none

/-- The number four hexadecimal digits stand for. -/
def hexValue4? (a b c d : UInt8) : Option Nat := do
  let a ← hexValue? a
  let b ← hexValue? b
  let c ← hexValue? c
  let d ← hexValue? d
  return ((a * 16 + b) * 16 + c) * 16 + d

/-- The bytes that may follow a backslash, apart from `u`. -/
def isSimpleEscape (b : UInt8) : Bool :=
  ['"', '\\', '/', 'b', 'f', 'n', 'r', 't'].any (byte · == b)

/-- A text without the blanks in front of it. -/
def skipBlanks (text : List UInt8) : List UInt8 := text.dropWhile isBlank

/-- The rest of a text that starts with the given word. -/
def word? (word : String) (text : List UInt8) : Option (List UInt8) :=
  let bytes := word.toList.map byte
  if bytes.isPrefixOf text then some (text.drop bytes.length) else none

/-! ## Strings and numbers -/

/-- The bytes up to the closing quote of a string, and what follows the quote.
Control characters have to be escaped, and an escape has to have its form. -/
def stringBody? : List UInt8 → Option (List UInt8 × List UInt8)
  | [] => none
  | b :: rest =>
    if b == byte '"' then some ([], rest)
    else if b == byte '\\' then
      match rest with
      | [] => none
      | e :: rest =>
        if e == byte 'u' then
          match rest with
          | h₁ :: h₂ :: h₃ :: h₄ :: rest => do
            let _ ← hexValue4? h₁ h₂ h₃ h₄
            let (body, rest) ← stringBody? rest
            return (b :: e :: h₁ :: h₂ :: h₃ :: h₄ :: body, rest)
          | _ => none
        else if isSimpleEscape e then do
          let (body, rest) ← stringBody? rest
          return (b :: e :: body, rest)
        else none
    else if b < 0x20 then none
    else do
      let (body, rest) ← stringBody? rest
      return (b :: body, rest)

/-- The digits in front of a text, and the rest. -/
def digits (text : List UInt8) : List UInt8 × List UInt8 :=
  (text.takeWhile isDigit, text.dropWhile isDigit)

/-- The rest of a text after an optional fraction, and whether there was one. -/
def fraction? (text : List UInt8) : Option (Bool × List UInt8) :=
  match text with
  | b :: rest =>
    if b == byte '.' then
      let (ds, rest) := digits rest
      if ds.isEmpty then none else some (true, rest)
    else some (false, text)
  | [] => some (false, [])

/-- The rest of a text after an optional exponent, and whether there was one. -/
def exponent? (text : List UInt8) : Option (Bool × List UInt8) :=
  match text with
  | b :: rest =>
    if b == byte 'e' || b == byte 'E' then
      let unsigned := match rest with
        | s :: more => if s == byte '+' || s == byte '-' then more else rest
        | [] => rest
      let (ds, rest) := digits unsigned
      if ds.isEmpty then none else some (true, rest)
    else some (false, text)
  | [] => some (false, [])

/-- A number without its sign: no leading zeros, then perhaps a fraction, then
perhaps an exponent. -/
def unsigned? (negative : Bool) (text : List UInt8) : Option (Node × List UInt8) := do
  let (ds, rest) := digits text
  if ds.isEmpty || (ds.head? == some (byte '0') && 1 < ds.length) then none
  let (fractional, rest) ← fraction? rest
  let (scientific, rest) ← exponent? rest
  return (.number negative ds (!fractional && !scientific), rest)

/-! ## Values -/

mutual

/-- Reads one value; `fuel` bounds how deep and how long it is. -/
def value? : (fuel : Nat) → List UInt8 → Option (Node × List UInt8)
  | 0, _ => none
  | fuel + 1, text =>
    match skipBlanks text with
    | [] => none
    | b :: rest =>
      if b == byte '[' then do
        let (elements, rest) ← elements? fuel true (skipBlanks rest)
        return (.array elements, rest)
      else if b == byte '\x7b' then do
        let (members, rest) ← members? fuel true (skipBlanks rest)
        return (.object members, rest)
      else if b == byte '"' then do
        let (raw, rest) ← stringBody? rest
        return (.string raw, rest)
      else if b == byte '-' then unsigned? true rest
      else if isDigit b then unsigned? false (b :: rest)
      else if b == byte 'n' then (word? "ull" rest).map fun rest => (.null, rest)
      else if b == byte 't' then (word? "rue" rest).map fun rest => (.bool true, rest)
      else if b == byte 'f' then (word? "alse" rest).map fun rest => (.bool false, rest)
      else none

/-- Reads the elements of an array up to its closing bracket. -/
def elements? : (fuel : Nat) → (first : Bool) → List UInt8 → Option (List Node × List UInt8)
  | 0, _, _ => none
  | _ + 1, _, [] => none
  | fuel + 1, first, b :: rest =>
    if b == byte ']' then some ([], rest)
    else do
      let start ← if first then some (b :: rest) else if b == byte ',' then some rest else none
      let (element, rest) ← value? fuel start
      let (elements, rest) ← elements? fuel false (skipBlanks rest)
      return (element :: elements, rest)

/-- Reads the members of an object up to its closing brace. -/
def members? : (fuel : Nat) → (first : Bool) → List UInt8 →
    Option (List (List UInt8 × Node) × List UInt8)
  | 0, _, _ => none
  | _ + 1, _, [] => none
  | fuel + 1, first, b :: rest =>
    if b == byte '\x7d' then some ([], rest)
    else do
      let start ← if first then some (b :: rest)
        else if b == byte ',' then some (skipBlanks rest) else none
      let body ← word? "\"" start
      let (key, rest) ← stringBody? body
      let rest ← word? ":" (skipBlanks rest)
      let (element, rest) ← value? fuel rest
      let (members, rest) ← members? fuel false (skipBlanks rest)
      return ((key, element) :: members, rest)

end

/-- Reads a text that is one value between blanks.  Every step of a value takes
a byte or is followed by one that does. -/
def read? (text : List UInt8) : Option Node := do
  let (node, rest) ← value? (2 * text.length + 2) text
  if (skipBlanks rest).isEmpty then some node else none

/-! ## What a string says -/

/-- The bytes of the text that an escaped byte string says.  A high surrogate
has to be followed by a low one. -/
def unescape? : List UInt8 → Option (List UInt8)
  | [] => some []
  | b :: rest =>
    if b == byte '\\' then
      match rest with
      | [] => none
      | e :: rest =>
        if e == byte 'u' then
          match rest with
          | h₁ :: h₂ :: h₃ :: h₄ :: rest => do
            let high ← hexValue4? h₁ h₂ h₃ h₄
            if 0xD800 ≤ high ∧ high < 0xDC00 then
              match rest with
              | b' :: u' :: l₁ :: l₂ :: l₃ :: l₄ :: rest => do
                let low ← hexValue4? l₁ l₂ l₃ l₄
                if b' == byte '\\' && u' == byte 'u' && 0xDC00 ≤ low && low < 0xE000 then
                  let tail ← unescape? rest
                  return utf8 (0x10000 + (high - 0xD800) * 0x400 + (low - 0xDC00)) ++ tail
                else none
              | _ => none
            else if 0xDC00 ≤ high ∧ high < 0xE000 then none
            else do
              let tail ← unescape? rest
              return utf8 high ++ tail
          | _ => none
        else do
          let tail ← unescape? rest
          return simpleEscape e :: tail
    else do
      let tail ← unescape? rest
      return b :: tail
where
  /-- The bytes of a code point. -/
  utf8 (codePoint : Nat) : List UInt8 := (Char.ofNat codePoint).toString.toUTF8.data.toList
  /-- The byte that the byte after a backslash stands for. -/
  simpleEscape (e : UInt8) : UInt8 :=
    if e == byte 'b' then 0x08
    else if e == byte 'f' then 0x0C
    else if e == byte 'n' then 0x0A
    else if e == byte 'r' then 0x0D
    else if e == byte 't' then 0x09
    else e

/-- The text a string says, when it says one. -/
def decodeString? (raw : List UInt8) : Option String := do
  let bytes ← unescape? raw
  String.fromUTF8? ⟨bytes.toArray⟩

end ListMode.Json
