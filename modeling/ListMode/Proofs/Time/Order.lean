import ListMode.Time
import Mathlib.Order.Std
import Mathlib.Tactic.FieldSimp
import Mathlib.Tactic.Positivity

/-!
# The order of timestamps

A timestamp stands for a moment, its ticks times the length of a tick, which is a
rational number of nanoseconds (`Timestamp.moment`).  Timestamps over valid timebases
are in the order of their moments.

*Two clocks.*  Cross multiplying brings both moments to the product of the two
dividers, a positive number, so it compares them (`compare_scaled`).

*One clock.*  Comparing the ticks is comparing them multiplied by the terms of the
clock, so the short way and the long way give one order (`compare_ticks`).

*Room.*  A product has three factors of 64, 32 and 32 bits, which 128 bits hold
(`scaled_lt`).

`compare_eq` is the order of two timestamps.  What holds of the order of the rational
numbers then holds over any number of clocks (`ordered_by_moment`).
-/

namespace ListMode

namespace Timebase.Valid

variable {b : Timebase}

theorem multiplier_pos (valid : b.Valid) : 0 < b.multiplier.toNat :=
  Nat.pos_of_ne_zero fun h => valid.1 (UInt32.toNat_inj.1 h)

theorem divider_pos (valid : b.Valid) : 0 < b.divider.toNat :=
  Nat.pos_of_ne_zero fun h => valid.2 (UInt32.toNat_inj.1 h)

end Timebase.Valid

namespace Timestamp

variable {a b c : Timestamp}

/-- The exact time of a timestamp, in nanoseconds. -/
def moment (t : Timestamp) : ℚ := t.ticks.toNat * t.base.multiplier.toNat / t.base.divider.toNat

/-! ## Products -/

/-- The products that cross multiplying two timestamps forms, one after the other. -/
def products (a b : Timestamp) : List Nat :=
  [a.ticks.toNat * a.base.multiplier.toNat, a.scaled b.base,
    b.ticks.toNat * b.base.multiplier.toNat, b.scaled a.base]

theorem ticks_mul_multiplier_lt (t : Timestamp) :
    t.ticks.toNat * t.base.multiplier.toNat < 2 ^ 96 := by
  rw [show 96 = 64 + 32 from rfl, Nat.pow_add]
  exact Nat.mul_lt_mul'' t.ticks.toNat_lt t.base.multiplier.toNat_lt

theorem scaled_lt (t : Timestamp) (other : Timebase) : t.scaled other < 2 ^ 128 := by
  rw [show 128 = 96 + 32 from rfl, Nat.pow_add]
  exact Nat.mul_lt_mul'' t.ticks_mul_multiplier_lt other.divider.toNat_lt

theorem le_of_mem_products {p : Nat} (h : p ∈ products a b) : p ≤ 2 ^ 128 - 1 := by
  have hpartial : ∀ t : Timestamp, t.ticks.toNat * t.base.multiplier.toNat ≤ 2 ^ 128 - 1 :=
    fun t => t.ticks_mul_multiplier_lt.le.trans (by omega)
  have hwhole : ∀ (t : Timestamp) (other : Timebase), t.scaled other ≤ 2 ^ 128 - 1 :=
    fun t other => Nat.le_pred_of_lt (t.scaled_lt other)
  simp only [products, List.mem_cons, List.not_mem_nil, or_false] at h
  rcases h with rfl | rfl | rfl | rfl
  · exact hpartial a
  · exact hwhole a b.base
  · exact hpartial b
  · exact hwhole b a.base

/-! ## Comparing moments -/

/-- A moment over the product of the two dividers. -/
theorem scaled_eq (valid : a.base.Valid) (other : Timebase) :
    (a.scaled other : ℚ) = a.moment * (a.base.divider.toNat * other.divider.toNat) := by
  have hne : (a.base.divider.toNat : ℚ) ≠ 0 := by exact_mod_cast valid.divider_pos.ne'
  rw [scaled, moment]
  push_cast
  field_simp

/-- Cross multiplying compares moments. -/
theorem compare_scaled (ha : a.base.Valid) (hb : b.base.Valid) :
    Ord.compare (a.scaled b.base) (b.scaled a.base) = Ord.compare a.moment b.moment := by
  have hcommon : (0 : ℚ) < a.base.divider.toNat * b.base.divider.toNat := by
    exact_mod_cast Nat.mul_pos ha.divider_pos hb.divider_pos
  calc Ord.compare (a.scaled b.base) (b.scaled a.base)
      = cmp (a.scaled b.base) (b.scaled a.base) := (cmp_eq_compare _ _).symm
    _ = cmp (a.scaled b.base : ℚ) (b.scaled a.base) :=
        (Nat.strictMono_cast.cmp_map_eq (a.scaled b.base) (b.scaled a.base)).symm
    _ = cmp (a.moment * (a.base.divider.toNat * b.base.divider.toNat))
          (b.moment * (a.base.divider.toNat * b.base.divider.toNat)) := by
        rw [scaled_eq ha, scaled_eq hb, mul_comm (b.base.divider.toNat : ℚ)]
    _ = cmp a.moment b.moment := cmp_mul_pos_right hcommon a.moment b.moment
    _ = Ord.compare a.moment b.moment := cmp_eq_compare _ _

/-- Over one clock, the ticks are compared as if they were cross multiplied. -/
theorem compare_ticks (valid : a.base.Valid) (same : a.base = b.base) :
    Ord.compare a.ticks.toNat b.ticks.toNat = Ord.compare (a.scaled b.base) (b.scaled a.base) := by
  have hpos := Nat.mul_pos valid.multiplier_pos valid.divider_pos
  rw [scaled, scaled, ← same, Nat.mul_assoc, Nat.mul_assoc, ← cmp_eq_compare, ← cmp_eq_compare,
    cmp_mul_pos_right hpos]

/-- Timestamps are compared by their moments. -/
theorem compare_eq (ha : a.base.Valid) (hb : b.base.Valid) :
    a.compare b = Ord.compare a.moment b.moment := by
  rw [compare, ← compare_scaled ha hb]
  split
  · next same => exact compare_ticks ha same
  · rfl

/-! ## The order -/

theorem atMost_iff (ha : a.base.Valid) (hb : b.base.Valid) :
    a.atMost b = true ↔ a.moment ≤ b.moment := by
  rw [atMost, compare_eq ha hb, Std.LawfulBCmp.isLE_iff_le]

theorem simultaneous_iff (ha : a.base.Valid) (hb : b.base.Valid) :
    a.simultaneous b = true ↔ a.moment = b.moment := by
  rw [simultaneous, compare_eq ha hb, beq_iff_eq, compare_eq_iff_eq]

theorem compare_swap (ha : a.base.Valid) (hb : b.base.Valid) :
    b.compare a = (a.compare b).swap := by
  rw [compare_eq ha hb, compare_eq hb ha]
  exact Std.OrientedOrd.eq_swap

/-- The order of timestamps is the order of their moments, is formed within 128 bits, and
is total and transitive over any clocks. -/
theorem ordered_by_moment (ha : a.base.Valid) (hb : b.base.Valid) (hc : c.base.Valid) :
    a.compare b = Ord.compare a.moment b.moment ∧
      (a.simultaneous b = true ↔ a.moment = b.moment) ∧
      (∀ p ∈ products a b, p ≤ 2 ^ 128 - 1) ∧
      (a.base = b.base → Ord.compare a.ticks.toNat b.ticks.toNat =
        Ord.compare (a.scaled b.base) (b.scaled a.base)) ∧
      b.compare a = (a.compare b).swap ∧
      (a.atMost b = true ∨ b.atMost a = true) ∧
      (a.atMost b = true → b.atMost c = true → a.atMost c = true) := by
  refine ⟨compare_eq ha hb, simultaneous_iff ha hb, fun p hp => le_of_mem_products hp,
    compare_ticks ha, compare_swap ha hb, ?_, ?_⟩
  · rw [atMost_iff ha hb, atMost_iff hb ha]
    exact le_total a.moment b.moment
  · rw [atMost_iff ha hb, atMost_iff hb hc, atMost_iff ha hc]
    exact le_trans

/-- The last tick of the slowest clock there is. -/
def lastTick : Timestamp := ⟨0xFFFFFFFFFFFFFFFF, ⟨0xFFFFFFFF, 1⟩⟩

theorem ordered_by_moment_threeClocks :
    let a : Timestamp := ⟨75, .pixie4⟩
    let b : Timestamp := ⟨1000, default⟩
    a.base.Valid ∧ b.base.Valid ∧ lastTick.base.Valid ∧
      a.simultaneous b = true ∧ a.moment = b.moment ∧
      (∀ p ∈ products a b, p ≤ 2 ^ 128 - 1) ∧ a.atMost lastTick = true := by
  intro a b
  have ha : a.base.Valid := by decide
  have hb : b.base.Valid := by decide
  have hc : lastTick.base.Valid := by decide
  obtain ⟨-, hmoment, hproducts, -, -, -, htrans⟩ := ordered_by_moment ha hb hc
  have hsame : a.simultaneous b = true := by decide
  exact ⟨ha, hb, hc, hsame, hmoment.1 hsame, hproducts, htrans (by decide) (by decide +kernel)⟩

end Timestamp

end ListMode
