import ListMode.Text.Hex
import ListMode.Text.Printable

/-!
# Quoted text

A piece of text is shown in a message between double quotes.  Quotes and
backslashes are escaped, the common control characters by their letters, and
every other character that is not printable by its code point.
-/

namespace ListMode.Text

/-- A number in hexadecimal digits, without leading zeros. -/
def hexNumber (n : Nat) : List Char := Nat.toDigits 16 n

/-- A character as it stands between quotes. -/
def quoteChar (c : Char) : List Char :=
  match c with
  | '"' => ['\\', '"']
  | '\\' => ['\\', '\\']
  | '\t' => ['\\', 't']
  | '\r' => ['\\', 'r']
  | '\n' => ['\\', 'n']
  | '\x00' => ['\\', '0']
  | c => if isPrintable c then [c] else "\\u\x7b".toList ++ hexNumber c.toNat ++ ['\x7d']

/-- A text between double quotes. -/
def quoted (text : List Char) : String :=
  String.ofList ('"' :: text.flatMap quoteChar ++ ['"'])

end ListMode.Text
