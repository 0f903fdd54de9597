/-!
# Room

Values of one kind that are kept side by side must take less than half of what
a 64-bit address reaches.  What would take more is not built at all: the work
that needs it ends there.
-/

namespace ListMode.Room

/-- The most bytes that values kept side by side may take. -/
def mostBytes : Nat := (1 <<< 63) - 1

/-- There is room for `count` values of `size` bytes. -/
def holds (count size : Nat) : Bool := decide (count * size ≤ mostBytes)

theorem holds_iff {count size : Nat} : holds count size = true ↔ count * size ≤ mostBytes := by
  simp [holds]

end ListMode.Room
