/-!
# Computations that may fail

A computation in steps gives a result only if each of its steps does, so it is taken
apart at its first step (`exists_of_bind_eq_ok`).  The result on a fixed input is found by
looking at results only, since faults need not be compared (`eq_ok_of_toOption`).
-/

namespace ListMode

theorem exists_of_bind_eq_ok {ε α β : Type} {x : Except ε α} {next : α → Except ε β} {b : β}
    (h : x >>= next = .ok b) : ∃ a, x = .ok a ∧ next a = .ok b := by
  cases x with
  | error e => cases h
  | ok a => exact ⟨a, rfl, h⟩

theorem eq_ok_of_toOption {ε α : Type} {x : Except ε α} {a : α} (h : x.toOption = some a) :
    x = .ok a := by
  cases x with
  | error e => cases h
  | ok b => exact congrArg Except.ok (Option.some.inj h)

end ListMode
