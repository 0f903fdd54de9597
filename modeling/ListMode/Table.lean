/-!
# Tables in key order

Small tables are kept as lists in ascending key order, each key once, so that
they are listed in that order wherever they are shown.  A table made of a whole
list is built from its end (`tableOf`), which takes one pass when the list is
already in order.
-/

namespace ListMode

/-- Puts an element into a list kept in ascending key order, in place of the
element with its own key. -/
def insertByKey {α : Type} (key : α → Int) (a : α) : List α → List α
  | [] => [a]
  | x :: xs =>
    if key a < key x then a :: x :: xs
    else if key a = key x then a :: xs
    else x :: insertByKey key a xs

/-- Puts an element into a list kept in ascending key order, unless it has an
element with that key. -/
def addByKey {α : Type} (key : α → Int) (a : α) : List α → List α
  | [] => [a]
  | x :: xs =>
    if key a < key x then a :: x :: xs
    else if key a = key x then x :: xs
    else x :: addByKey key a xs

/-- The table of a list, in which the later of two elements with a key counts. -/
def tableOf {α : Type} (key : α → Int) (l : List α) : List α := l.foldr (addByKey key) []

/-- The element with a key. -/
def findByKey? {α : Type} (key : α → Int) (k : Int) (table : List α) : Option α :=
  table.find? fun a => key a == k

/-- How often each key occurs in a list, in ascending key order. -/
def tally (keys : List Int) : List (Int × Nat) :=
  keys.foldl (fun table k =>
    let n := ((findByKey? Prod.fst k table).map Prod.snd).getD 0
    insertByKey Prod.fst (k, n + 1) table) []

example : tally [3, 1, 3] = [(1, 1), (3, 2)] := by decide
example : insertByKey id 2 [1, 3] = [1, 2, 3] ∧ insertByKey id 3 [1, 3] = [1, 3] := by decide

example : tableOf Prod.fst [(2, 'a'), (1, 'b'), (2, 'c')] = [(1, 'b'), (2, 'c')] := by decide

end ListMode
