/-!
# Blanks and tokens

Blank characters are those of the Unicode property `White_Space`.  A text falls
into tokens, the longest pieces without a blank (`Text.tokens`).
-/

namespace ListMode.Text

/-- The character separates tokens. -/
def isBlank (c : Char) : Bool :=
  let n := c.toNat
  (9 ≤ n && n ≤ 13) || n == 0x20 || n == 0x85 || n == 0xA0 || n == 0x1680 ||
    (0x2000 ≤ n && n ≤ 0x200A) || n == 0x2028 || n == 0x2029 || n == 0x202F || n == 0x205F ||
    n == 0x3000

/-! ## Tokens -/

/-- A token read backwards, put behind the tokens before it unless it is empty. -/
def closeToken (token : List Char) (done : List (List Char)) : List (List Char) :=
  if token.isEmpty then done else token.reverse :: done

/-- Splits the rest of a text; `token` and `done` are what was read of the
current token and the tokens before it, both backwards. -/
def tokensFrom (token : List Char) (done : List (List Char)) : List Char → List (List Char)
  | [] => (closeToken token done).reverse
  | c :: cs =>
    if isBlank c then tokensFrom [] (closeToken token done) cs else tokensFrom (c :: token) done cs

/-- The tokens of a text. -/
def tokens (text : List Char) : List (List Char) := tokensFrom [] [] text

/-- A text without the blanks at both ends. -/
def trim (text : List Char) : List Char :=
  ((text.dropWhile isBlank).reverse.dropWhile isBlank).reverse

example : tokens " a  bc\n".toList = ["a".toList, "bc".toList] := by decide

end ListMode.Text
