import ListMode.Proofs.Spectrum.Feeding
import Mathlib.Algebra.BigOperators.Group.Finset.Basic
import Mathlib.Algebra.BigOperators.Group.Finset.Piecewise
import Mathlib.Algebra.Order.Group.Nat

/-!
# Counting events

Counting events raises each cell by the number of events that fall into it, up to
the largest count a cell holds (`Tally.count_countAll`).  The sum of the cells of a
row is then the number of events in the row, and the same holds for columns
(`sum_countP`).
-/

namespace ListMode

open Coincidence (Event)
open Coordinate (index)

/-! ## One event -/

theorem index_eq_iff {κ : Type} [Coordinate κ] {a b : κ} : index a = index b ↔ a = b :=
  ⟨Coordinate.index_inj, fun h => h ▸ rfl⟩

namespace Counts

@[simp] theorem axes_bump (c : Counts) (buffered : Bool) (n : Nat) (coords : List Bin) :
    (c.bump buffered n coords).axes = c.axes := by
  unfold bump
  split <;> rfl

theorem count_bump {c : Counts} {coords : List Bin} (arity : coords.length = c.axes.dimensions)
    (buffered : Bool) (n : Nat) (other : List Bin) :
    (c.bump buffered n coords).count other =
      if coords = other then min (c.count coords + n) countLimit else c.count other := by
  cases c with
  | line cells =>
      obtain ⟨j, rfl⟩ := List.length_eq_one_iff.1 arity
      match other with
      | [] => rfl
      | [k] => simp [bump, count, Cells.count_bump, index_eq_iff]
      | _ :: _ :: _ => simp [bump, count]
  | plane cells touched =>
      obtain ⟨i, j, rfl⟩ := List.length_eq_two.1 arity
      match other with
      | [] => simp [bump, count]
      | [_] => simp [bump, count]
      | [k, l] => simp [bump, count, Cells.count_bump, index_eq_iff]
      | _ :: _ :: _ :: _ => simp [bump, count]

theorem length_of_cellOf? {axes : Axes} {m : Metadata} {e : Event} {coords : List Bin}
    (h : cellOf? axes m e = some coords) : coords.length = axes.dimensions := by
  unfold cellOf? at h
  cases axes with
  | one =>
      obtain ⟨j, -, rfl⟩ := Option.map_eq_some_iff.1 h
      rfl
  | two =>
      simp only at h
      split at h
      · cases h
      · cases h
        rfl

end Counts

theorem Metadata.length_of_cellFor? {m : Metadata} {axes : Axes} {e : Event} {coords : List Bin}
    (h : m.cellFor? axes e = some coords) : coords.length = axes.dimensions := by
  rw [cellFor?] at h
  split at h
  · exact Counts.length_of_cellOf? h
  · cases h

/-! ## Many events -/

namespace Tally

theorem axes_count (m : Metadata) (t : Tally) (e : Event) :
    (t.count m e).counts.axes = t.counts.axes := by
  rw [count]
  split
  · exact Counts.axes_bump _ _ _ _
  · rfl

theorem count_count (m : Metadata) (t : Tally) (e : Event) (coords : List Bin)
    (held : t.counts.count coords ≤ countLimit) :
    (t.count m e).counts.count coords =
      min (t.counts.count coords + (m.cellFor? t.counts.axes e == some coords).toNat)
        countLimit := by
  rw [count]
  cases hc : m.cellFor? t.counts.axes e with
  | none => simpa using held
  | some cell =>
      simp only [Counts.count_bump (Metadata.length_of_cellFor? hc)]
      by_cases same : cell = coords
      · simp [same]
      · have apart : (cell == coords) = false := by simp [same]
        simp [same, apart, held]

/-- Every cell is raised by the events that fall into it. -/
theorem count_countAll (m : Metadata) (t : Tally) (es : List Event) (coords : List Bin)
    (held : t.counts.count coords ≤ countLimit) :
    (t.countAll m es).counts.count coords =
      min (t.counts.count coords + es.countP fun e => m.cellFor? t.counts.axes e == some coords)
        countLimit := by
  induction es generalizing t with
  | nil => simpa [countAll] using held
  | cons e es ih =>
      have first := count_count m t e coords held
      have rest := ih (t.count m e) (first ▸ Nat.min_le_right _ _)
      have step : t.countAll m (e :: es) = (t.count m e).countAll m es := rfl
      rw [step, rest, first, axes_count, List.countP_cons]
      cases (m.cellFor? t.counts.axes e == some coords) with
      | false => simp only [Bool.toNat_false, Bool.false_eq_true, if_false]; omega
      | true => simp only [Bool.toNat_true, if_true]; omega

theorem total_count (m : Metadata) (t : Tally) (e : Event) :
    (t.count m e).total = t.total + (m.cellFor? t.counts.axes e).isSome.toNat := by
  rw [count]
  cases m.cellFor? t.counts.axes e with
  | none => rfl
  | some coords => rfl

/-- The total is raised by the events that have a cell. -/
theorem total_countAll (m : Metadata) (t : Tally) (es : List Event) :
    (t.countAll m es).total =
      t.total + es.countP fun e => (m.cellFor? t.counts.axes e).isSome := by
  induction es generalizing t with
  | nil => rfl
  | cons e es ih =>
      have step : t.countAll m (e :: es) = (t.count m e).countAll m es := rfl
      rw [step, ih, total_count, axes_count, List.countP_cons]
      cases (m.cellFor? t.counts.axes e).isSome with
      | true => exact (Nat.add_assoc _ _ _).trans (congrArg _ (Nat.add_comm _ _))
      | false => rfl

end Tally

theorem Spectrum.count_feedAll {s : Spectrum} (hs : s.ready = true) (cs : List Feed)
    {coords : List Bin} (held : s.counts.count coords ≤ countLimit) :
    (s.feedAll cs).counts.count coords =
      min (s.counts.count coords +
        (s.closedBy cs).countP fun e => s.metadata.cellFor? s.axes e == some coords)
        countLimit := by
  have counts : (s.feedAll cs).counts = (s.feedAll cs).tally.counts := rfl
  rw [counts, tally_feedAll hs]
  exact Tally.count_countAll s.metadata.setup s.tally (s.closedBy cs) coords held

/-! ## Rows and columns -/

theorem ofNat_eq_iff {k : Bin} {j : Nat} (hj : j ∈ Finset.range UInt16.size) :
    UInt16.ofNat j = k ↔ j = k.toNat := by
  rw [← UInt16.toNat_inj, UInt16.toNat_ofNat_of_lt' (Finset.mem_range.1 hj)]

theorem sum_indicator (b : Bool) (number : Option Bin) :
    (∑ j ∈ Finset.range UInt16.size,
      if (b && number == some (UInt16.ofNat j)) = true then 1 else 0) =
        if (b && number.isSome) = true then 1 else 0 := by
  cases number with
  | none =>
      refine (Finset.sum_eq_zero fun j _ => ?_).trans ?_
      · simp
      · simp
  | some k =>
      have hmem : k.toNat ∈ Finset.range UInt16.size := Finset.mem_range.2 k.toNat_lt
      rw [Finset.sum_eq_single_of_mem k.toNat hmem]
      · simp
      · intro j hj hne
        have : ¬ k = UInt16.ofNat j := fun h => hne ((ofNat_eq_iff hj).1 h.symm)
        simp [this]

/-- Of a class of elements, those that have a number are those with the number 0,
those with the number 1, and so on. -/
theorem sum_countP {α : Type} (p : α → Bool) (number : α → Option Bin) (as : List α) :
    ∑ j ∈ Finset.range UInt16.size, as.countP (fun a => p a && number a == some (UInt16.ofNat j)) =
      as.countP fun a => p a && (number a).isSome := by
  induction as with
  | nil => exact Finset.sum_const_zero
  | cons a as ih =>
      simp only [List.countP_cons, Finset.sum_add_distrib, ih, sum_indicator]

end ListMode
