import ListMode.Decimal.Notation
import ListMode.Text.Hex

/-!
# Writing JSON

Values to be written as JSON, in one of two layouts: on a single line without
blanks (`Value.compact`), or with every element and member on lines of its own,
two blanks further in than what it belongs to (`Value.lines`).  The members of
an object are written in the order they are given in; `Value.sorted` puts them
in the order of their keys.
-/

namespace ListMode.Json

/-- A value to be written. -/
inductive Value where
  /-- The word `null`. -/
  | null
  /-- One of the words `true` and `false`. -/
  | bool (b : Bool)
  /-- A whole number. -/
  | integer (n : Int)
  /-- A number with the fewest digits that read back. -/
  | decimal (x : Float)
  /-- A string. -/
  | string (s : String)
  /-- An array. -/
  | array (elements : List Value)
  /-- An object. -/
  | object (members : List (String × Value))

namespace Value

/-! ## Values of common types -/

/-- A count. -/
def count (n : Nat) : Value := .integer n

/-- A value that may be missing. -/
def ofOption {α : Type} (f : α → Value) : Option α → Value
  | some a => f a
  | none => .null

/-- Puts a member into a list in key order, in place of the member with its own
key. -/
def insertMember (m : String × Value) : List (String × Value) → List (String × Value)
  | [] => [m]
  | x :: xs =>
    if m.1 < x.1 then m :: x :: xs
    else if m.1 = x.1 then m :: xs
    else x :: insertMember m xs

/-- The object with the given members in the order of their keys; of two members
of a key the later counts. -/
def sorted (members : List (String × Value)) : Value :=
  .object (members.foldl (fun kept m => insertMember m kept) [])

end Value

/-! ## Strings -/

/-- A character as it stands in a string. -/
def escaped (c : Char) : List Char :=
  match c with
  | '"' => ['\\', '"']
  | '\\' => ['\\', '\\']
  | '\x08' => ['\\', 'b']
  | '\x0c' => ['\\', 'f']
  | '\n' => ['\\', 'n']
  | '\r' => ['\\', 'r']
  | '\t' => ['\\', 't']
  | c => if c.toNat < 0x20 then '\\' :: 'u' :: Text.hexDigits 4 c.toNat else [c]

/-- A string with its quotes. -/
def quoted (s : String) : List Char := '"' :: s.toList.flatMap escaped ++ ['"']

/-! ## One line -/

/-- Texts one after the other, with commas between them. -/
def commaSeparated : List (List Char) → List Char
  | [] => []
  | [t] => t
  | t :: ts => t ++ ',' :: commaSeparated ts

mutual

/-- A value on a single line. -/
def Value.compact : Value → List Char
  | .null => "null".toList
  | .bool b => (toString b).toList
  | .integer n => (toString n).toList
  | .decimal x => Decimal.json x
  | .string s => quoted s
  | .array elements => '[' :: commaSeparated (compactElements elements) ++ [']']
  | .object members => '\x7b' :: commaSeparated (compactMembers members) ++ ['\x7d']

/-- The elements of an array, each on a single line. -/
def compactElements : List Value → List (List Char)
  | [] => []
  | v :: vs => v.compact :: compactElements vs

/-- The members of an object, each on a single line. -/
def compactMembers : List (String × Value) → List (List Char)
  | [] => []
  | (key, v) :: ms => (quoted key ++ ':' :: v.compact) :: compactMembers ms

end

/-! ## Many lines -/

/-- Lines with a comma behind the last of them. -/
def commaEnded : List String → List String
  | [] => []
  | [line] => [line ++ ","]
  | line :: lines => line :: commaEnded lines

/-- The lines of several parts, with commas between the parts. -/
def commaSeparatedLines : List (List String) → List String
  | [] => []
  | [part] => part
  | part :: parts => commaEnded part ++ commaSeparatedLines parts

/-- Parts between two brackets, which stand together when there are none. -/
def bracketed (opening closing : String) (parts : List (List String)) : List String :=
  if parts.isEmpty then [opening ++ closing]
  else opening :: (commaSeparatedLines parts).map ("  " ++ ·) ++ [closing]

/-- Lines with a text in front of the first of them. -/
def headed (head : String) : List String → List String
  | [] => [head]
  | line :: lines => (head ++ line) :: lines

mutual

/-- A value on lines of its own. -/
def Value.lines : Value → List String
  | .array elements => bracketed "[" "]" (elementLines elements)
  | .object members => bracketed "\x7b" "\x7d" (memberLines members)
  | v => [String.ofList v.compact]

/-- The elements of an array, each on lines of its own. -/
def elementLines : List Value → List (List String)
  | [] => []
  | v :: vs => v.lines :: elementLines vs

/-- The members of an object, each on lines of its own. -/
def memberLines : List (String × Value) → List (List String)
  | [] => []
  | (key, v) :: ms => headed (String.ofList (quoted key) ++ ": ") v.lines :: memberLines ms

end

example : (Value.array [.integer (-1), .object [("a", .bool true)]]).compact =
    "[-1,\x7b\"a\":true\x7d]".toList := by
  decide +kernel
example : (Value.object [("a", .array []), ("b", .array [.null, .count 2])]).lines =
    ["\x7b", "  \"a\": [],", "  \"b\": [", "    null,", "    2", "  ]", "\x7d"] := by
  decide +kernel
example : quoted "a\"\x01" = "\"a\\\"\\u0001\"".toList := by decide +kernel

end ListMode.Json
