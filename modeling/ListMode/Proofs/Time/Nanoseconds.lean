import ListMode.Proofs.Binary64.Arithmetic
import ListMode.Time

/-!
# Timestamps in nanoseconds

The place of a timestamp in nanoseconds, and the distance of two, are binary64
numbers.  What numbers they are is said with rationals and rounding (`place`,
`denotes_nsSince`).  Rounding keeps order, so over one valid timebase a later
timestamp is no nearer to an earlier one (`nsSince_le_of_le`), although two places
may be rounded in different ways.
-/

namespace ListMode

open Binary64

/-! ## The length of a tick -/

namespace Timebase

variable {b : Timebase}

/-- The number that the length of a tick is. -/
def tick (b : Timebase) : ℚ := nearest (b.multiplier.toNat / b.divider.toNat)

theorem Valid.quotient_bounds (valid : b.Valid) :
    2 ^ (-32 : ℤ) ≤ (b.multiplier.toNat : ℚ) / b.divider.toNat ∧
      (b.multiplier.toNat : ℚ) / b.divider.toNat ≤ 2 ^ (32 : ℤ) := by
  have term (n : UInt32) (h : n ≠ 0) : (1 : ℚ) ≤ n.toNat ∧ (n.toNat : ℚ) ≤ 2 ^ (32 : ℤ) := by
    have hpos : 0 < n.toNat := Nat.pos_of_ne_zero fun hn => h (UInt32.toNat_inj.1 hn)
    exact ⟨by exact_mod_cast hpos, by exact_mod_cast n.toNat_lt.le⟩
  obtain ⟨hm, hm'⟩ := term b.multiplier valid.1
  obtain ⟨hd, hd'⟩ := term b.divider valid.2
  constructor
  · rw [zpow_neg, ← one_div]
    exact div_le_div₀ (by linarith) hm (by linarith) hd'
  · exact div_le_of_le_mul₀ (by linarith) (two_zpow_pos 32).le (by nlinarith)

theorem Valid.tick_bounds (valid : b.Valid) : 0 ≤ b.tick ∧ b.tick ≤ 2 ^ (32 : ℤ) := by
  obtain ⟨hlow, hhigh⟩ := valid.quotient_bounds
  constructor
  · exact nearest_zero ▸ nearest_mono ((two_zpow_pos (-32)).le.trans hlow)
  · exact nearest_two_zpow (n := 32) (by norm_num) ▸ nearest_mono hhigh

theorem Valid.denotes_tickNs (valid : b.Valid) : Denotes b.tickNs b.tick := by
  obtain ⟨hlow, hhigh⟩ := valid.quotient_bounds
  have habs : |(b.multiplier.toNat : ℚ) / b.divider.toNat| =
      b.multiplier.toNat / b.divider.toNat :=
    abs_of_pos ((two_zpow_pos _).trans_le hlow)
  refine (denotes_uint32 b.multiplier).div (denotes_uint32 b.divider) ?_ ?_
  · rw [habs]
    exact (zpow_le_zpow_right₀ one_le_two (by norm_num)).trans hlow
  · rw [habs]
    exact hhigh.trans (zpow_le_zpow_right₀ one_le_two (by norm_num))

end Timebase

/-! ## Places and distances -/

namespace Timestamp

/-- The number that a timestamp in nanoseconds is. -/
def place (t : Timestamp) : ℚ := nearest (nearest t.ticks.toNat * t.base.tick)

variable {s t u : Timestamp}

theorem nearest_ticks_bounds (t : Timestamp) :
    0 ≤ nearest t.ticks.toNat ∧ nearest t.ticks.toNat ≤ 2 ^ (64 : ℤ) := by
  constructor
  · exact nearest_zero ▸ nearest_mono (Nat.cast_nonneg t.ticks.toNat)
  · have hle : (t.ticks.toNat : ℚ) ≤ 2 ^ (64 : ℤ) := by exact_mod_cast t.ticks.toNat_lt.le
    exact nearest_two_zpow (n := 64) (by norm_num) ▸ nearest_mono hle

theorem product_bounds (valid : t.base.Valid) :
    0 ≤ nearest t.ticks.toNat * t.base.tick ∧
      nearest t.ticks.toNat * t.base.tick ≤ 2 ^ (96 : ℤ) := by
  obtain ⟨hticks, hticks'⟩ := t.nearest_ticks_bounds
  obtain ⟨htick, htick'⟩ := valid.tick_bounds
  refine ⟨mul_nonneg hticks htick, ?_⟩
  calc nearest t.ticks.toNat * t.base.tick ≤ 2 ^ (64 : ℤ) * 2 ^ (32 : ℤ) :=
        mul_le_mul hticks' htick' htick (two_zpow_pos _).le
    _ = 2 ^ (96 : ℤ) := by rw [← zpow_add₀ two_ne_zero]; norm_num

theorem place_bounds (valid : t.base.Valid) : 0 ≤ t.place ∧ t.place ≤ 2 ^ (96 : ℤ) := by
  obtain ⟨hlow, hhigh⟩ := product_bounds valid
  constructor
  · exact nearest_zero ▸ nearest_mono hlow
  · exact nearest_two_zpow (n := 96) (by norm_num) ▸ nearest_mono hhigh

theorem denotes_ns (valid : t.base.Valid) : Denotes t.ns t.place := by
  obtain ⟨hlow, hhigh⟩ := product_bounds valid
  refine (denotes_uint64 t.ticks).mul valid.denotes_tickNs ?_
  rw [abs_of_nonneg hlow]
  exact hhigh.trans (zpow_le_zpow_right₀ one_le_two (by norm_num))

theorem denotes_nsSince (ht : t.base.Valid) (hs : s.base.Valid) :
    Denotes (t.nsSince s) (nearest (t.place - s.place)) := by
  obtain ⟨htlow, hthigh⟩ := place_bounds ht
  obtain ⟨hslow, hshigh⟩ := place_bounds hs
  refine (denotes_ns ht).sub (denotes_ns hs) ?_
  have hrange : |t.place - s.place| ≤ 2 ^ (96 : ℤ) := abs_le.2 ⟨by linarith, by linarith⟩
  exact hrange.trans (zpow_le_zpow_right₀ one_le_two (by norm_num))

/-- Places are in the order of the ticks. -/
theorem place_mono (valid : t.base.Valid) (same : t.base = u.base)
    (h : t.ticks.toNat ≤ u.ticks.toNat) : t.place ≤ u.place := by
  refine nearest_mono ?_
  rw [same]
  exact mul_le_mul_of_nonneg_right (nearest_mono (by exact_mod_cast h))
    (same ▸ valid).tick_bounds.1

/-- What is near enough at one time was near enough before. -/
theorem nsSince_le_of_le (ht : t.base.Valid) (hs : s.base.Valid) (same : t.base = u.base)
    (h : t.ticks.toNat ≤ u.ticks.toNat) {window : Float} (near : u.nsSince s ≤ window) :
    t.nsSince s ≤ window := by
  have hplace := place_mono ht same h
  refine (denotes_nsSince ht hs).le_of_le (denotes_nsSince (same ▸ ht) hs) ?_ near
  exact nearest_mono (sub_le_sub_right hplace _)

/-- What a timestamp is near enough to, it is near enough to at any time after. -/
theorem nsSince_le_of_start_le (ht : t.base.Valid) (hs : s.base.Valid) (same : s.base = u.base)
    (h : s.ticks.toNat ≤ u.ticks.toNat) {window : Float} (near : t.nsSince s ≤ window) :
    t.nsSince u ≤ window := by
  have hplace := place_mono hs same h
  refine (denotes_nsSince ht (same ▸ hs)).le_of_le (denotes_nsSince ht hs) ?_ near
  exact nearest_mono (sub_le_sub_left hplace _)

theorem denotes_nsSince_self (ht : t.base.Valid) : Denotes (t.nsSince t) 0 := by
  have h := denotes_nsSince ht ht
  rwa [sub_self, nearest_zero] at h

end Timestamp

end ListMode
