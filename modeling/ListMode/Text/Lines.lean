/-!
# Lines of a byte string

A line is ended by a line feed, and a carriage return before the line feed
belongs to the end and not to the line.  What stands after the last line feed
is a line when it is not empty.
-/

namespace ListMode.Text

/-- A line read backwards, without the carriage return before its end. -/
def closeLine : List UInt8 → List UInt8
  | b :: line => if b = 0x0D then line.reverse else (b :: line).reverse
  | [] => []

/-- Splits the rest of a byte string; `line` and `done` are what was read of the
current line and the lines before it, both backwards. -/
def linesFrom (line : List UInt8) (done : List (List UInt8)) : List UInt8 → List (List UInt8)
  | [] => (if line.isEmpty then done else line.reverse :: done).reverse
  | b :: bs =>
    if b = 0x0A then linesFrom [] (closeLine line :: done) bs else linesFrom (b :: line) done bs

/-- The lines of a byte string. -/
def lines (bytes : List UInt8) : List (List UInt8) := linesFrom [] [] bytes

example : lines [1, 0x0D, 0x0A, 0x0A, 2] = [[1], [], [2]] := by decide

end ListMode.Text
