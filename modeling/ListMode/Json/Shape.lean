import ListMode.Json.Node
import ListMode.Text.Integer

/-!
# Reading shaped JSON

How the parts of a text of a known shape are read.  A record of named fields
may be written as an object, whose unknown keys are passed over and whose known
keys stand once, or as an array of the fields in their order.  A whole number
has to be written as one and has to be in its range.
-/

namespace ListMode.Json.Node

/-- The whole number a node says, when it lies between the bounds.  A minus
sign before zero makes no whole number. -/
def integer? (low high : Int) : Node → Option Int
  | .number negative digits true => do
    let limit := max low.natAbs high.natAbs + 1
    let n ← Text.digitsBelow? limit 0 (digits.map fun d => Char.ofNat d.toNat)
    if negative && n == 0 then none
    else
      let i : Int := if negative then -n else n
      if low ≤ i && i ≤ high then some i else none
  | _ => none

/-- The natural number of at most so many bits that a node says. -/
def natural? (bits : Nat) (n : Node) : Option Nat := (n.integer? 0 ((1 <<< bits : Nat) - 1)).map Int.toNat

/-- The text a node says. -/
def text? : Node → Option String
  | .string raw => decodeString? raw
  | _ => none

/-- The elements of an array, each read by the same rule. -/
def list? {α : Type} (read : Node → Option α) : Node → Option (List α)
  | .array elements => elements.mapM read
  | _ => none

/-- A value that `null` leaves out. -/
def nullable? {α : Type} (read : Node → Option α) : Node → Option (Option α)
  | .null => some none
  | n => (read n).map some

/-- The value of the one member with a key, among members with decoded keys;
nothing when the key stands twice. -/
def member? (members : List (String × Node)) (key : String) : Option (Option Node) :=
  match members.filter (·.1 == key) with
  | [] => some none
  | [m] => some (some m.2)
  | _ => none

/-- The fields of a record, in the order of their names; a field that is not
written is left out. -/
def fields? (names : List String) : Node → Option (List (Option Node))
  | .array elements =>
    if elements.length ≤ names.length then
      some ((List.range names.length).map (elements[·]?))
    else none
  | .object members => do
    let members ← members.mapM fun (raw, n) => (decodeString? raw).map (·, n)
    names.mapM (member? members)
  | _ => none

end ListMode.Json.Node

namespace ListMode.Json

/-- A field that may be left out for a default. -/
def field? {α : Type} (read : Node → Option α) (default : α) : Option Node → Option α
  | none => some default
  | some n => read n

end ListMode.Json
