import ListMode.Proofs.Binary64.Error
import ListMode.Proofs.Time.Nanoseconds

/-!
# How exact distances in nanoseconds are

Two timestamps of one clock are a whole number of ticks apart, but their distance in
nanoseconds is found by rounding three times, once for each place and once for the
difference.  Each time it moves by a small part of a place, so below a tick `limit` the
distance is off by four parts in 2^53 of the last place at most
(`Timestamp.abs_distance_sub_le`).  When no place is rounded nothing is off
(`Timebase.Exact`).

A window that the exact distance is further away from than that (`Timebase.OffEdge`) holds
the rounded distance if and only if it holds the exact one (`Timestamp.nsSince_le_iff`).
How the places were rounded no longer matters then, and neither does when the two
timestamps were taken.
-/

namespace ListMode

open Binary64

namespace Timebase

variable {b : Timebase} {limit : Nat}

/-- The places of the ticks below a limit are not rounded. -/
def Exact (b : Timebase) (limit : Nat) : Prop := ∀ n < limit, nearest (n * b.tick) = n * b.tick

/-- The distance of `d` ticks is further from a window than rounding moves the distance of
two ticks below a limit. -/
def OffEdge (b : Timebase) (limit : Nat) (window : ℚ) (d : Nat) : Prop :=
  limit * b.tick / 2 ^ 51 < |window - d * b.tick|

/-- A tick that is a whole number of units leaves as many ticks exact as there are bits
behind its own. -/
theorem exact_of_tick_eq {m : Nat} {e : ℤ} (htick : b.tick = m * 2 ^ e) (he : -1074 ≤ e)
    (room : limit * m ≤ 2 ^ 53) : b.Exact limit := by
  intro n hn
  obtain rfl | hm := m.eq_zero_or_pos
  · simp [htick]
  have hlt : n * m < 2 ^ 53 := (Nat.mul_lt_mul_of_pos_right hn hm).trans_le room
  have hproduct : (n : ℚ) * b.tick = (n * m : ℕ) * 2 ^ e := by
    rw [htick]
    push_cast
    ring
  rw [hproduct, nearest_of_nonneg (by positivity), nearestMagnitude_eq_self hlt he]

/-- A clock that counts whole nanoseconds is exact as far as their number has 53 bits. -/
theorem exact_of_whole {m : UInt32} (room : limit * m.toNat ≤ 2 ^ 53) :
    (Timebase.mk m 1).Exact limit := by
  have hword : m.toNat < 2 ^ 53 := m.toNat_lt.trans (by norm_num)
  have htick : (Timebase.mk m 1).tick = m.toNat * 2 ^ (0 : ℤ) := by
    have one : (((Timebase.mk m 1).divider.toNat : ℕ) : ℚ) = 1 := rfl
    rw [tick, one, div_one, nearest_natCast hword, zpow_zero, mul_one]
  exact exact_of_tick_eq htick (by norm_num) room

theorem Valid.two_zpow_le_tick (valid : b.Valid) : 2 ^ (-32 : ℤ) ≤ b.tick :=
  nearest_two_zpow (n := -32) (by norm_num) ▸ nearest_mono valid.quotient_bounds.1

theorem Valid.tick_pos (valid : b.Valid) : 0 < b.tick :=
  (two_zpow_pos _).trans_le valid.two_zpow_le_tick

end Timebase

namespace Timestamp

variable {s t : Timestamp} {limit : Nat}

theorem place_eq (ht : t.ticks.toNat < limit) (hlimit : limit ≤ 2 ^ 53) :
    t.place = nearest (t.ticks.toNat * t.base.tick) := by
  rw [place, nearest_natCast (ht.trans_le hlimit)]

/-- Rounding moves a number of nanoseconds that a clock reaches by a small part of what it
reaches. -/
theorem abs_nearest_sub_le_of_le {b : Timebase} (valid : b.Valid) (hlimit : 0 < limit) {x y : ℚ}
    (hx : |x| ≤ y) (hy : limit * b.tick ≤ y) : |nearest x - x| ≤ y / 2 ^ 53 := by
  have hlow : 2 ^ (-32 : ℤ) ≤ limit * b.tick := by
    have hone : (1 : ℚ) ≤ limit := by exact_mod_cast hlimit
    exact valid.two_zpow_le_tick.trans (le_mul_of_one_le_left valid.tick_pos.le hone)
  have hleast : (2 : ℚ) ^ (-1075 : ℤ) ≤ y / 2 ^ 53 := by
    rw [le_div_iff₀ (by positivity), ← zpow_natCast, ← zpow_add₀ two_ne_zero]
    exact (zpow_le_zpow_right₀ one_le_two (by norm_num)).trans (hlow.trans hy)
  refine (abs_nearest_sub_le x).trans (max_le ?_ hleast)
  exact div_le_div_of_nonneg_right hx (by positivity)

theorem abs_place_sub_le (valid : t.base.Valid) (ht : t.ticks.toNat < limit)
    (hlimit : limit ≤ 2 ^ 53) :
    |t.place - t.ticks.toNat * t.base.tick| ≤ limit * t.base.tick / 2 ^ 53 := by
  have htick := valid.tick_pos
  have hnonneg : (0 : ℚ) ≤ t.ticks.toNat * t.base.tick := by positivity
  have hle : (t.ticks.toNat : ℚ) * t.base.tick ≤ limit * t.base.tick :=
    mul_le_mul_of_nonneg_right (by exact_mod_cast ht.le) htick.le
  rw [place_eq ht hlimit]
  exact abs_nearest_sub_le_of_le valid (Nat.zero_lt_of_lt ht) ((abs_of_nonneg hnonneg).trans_le hle)
    le_rfl

/-- The distance of two timestamps in nanoseconds is off by three roundings at most, the last
of which counts twice. -/
theorem abs_distance_sub_le (valid : t.base.Valid) (same : s.base = t.base)
    (hs : s.ticks.toNat < limit) (ht : t.ticks.toNat < limit) (hlimit : limit ≤ 2 ^ 53) :
    |nearest (t.place - s.place) - (t.ticks.toNat - s.ticks.toNat : ℚ) * t.base.tick| ≤
      limit * t.base.tick / 2 ^ 51 := by
  have htick := valid.tick_pos
  have hspan : (0 : ℚ) ≤ limit * t.base.tick := by positivity
  have hts := abs_place_sub_le (same ▸ valid) hs hlimit
  have htt := abs_place_sub_le valid ht hlimit
  rw [same] at hts
  have hbound (u : Timestamp) (hbase : u.base = t.base) (hu : u.ticks.toNat < limit) :
      0 ≤ u.place ∧ u.place ≤ 2 * (limit * t.base.tick) := by
    have herror := abs_place_sub_le (hbase ▸ valid) hu hlimit
    have hle : (u.ticks.toNat : ℚ) * t.base.tick ≤ limit * t.base.tick :=
      mul_le_mul_of_nonneg_right (by exact_mod_cast hu.le) htick.le
    rw [hbase, abs_le] at herror
    exact ⟨(place_bounds (hbase ▸ valid)).1, by linarith [herror.2]⟩
  have hs' := hbound s same hs
  have ht' := hbound t rfl ht
  have hdiff : |t.place - s.place| ≤ 2 * (limit * t.base.tick) :=
    abs_le.2 ⟨by linarith [hs'.2, ht'.1], by linarith [hs'.1, ht'.2]⟩
  have hround := abs_nearest_sub_le_of_le valid (Nat.zero_lt_of_lt ht) hdiff (by linarith)
  rw [abs_le] at hts htt hround ⊢
  constructor
  · linarith [hts.2, htt.1, hround.1]
  · linarith [hts.1, htt.2, hround.2]

theorem distance_eq_of_exact (same : s.base = t.base) (later : s.ticks.toNat ≤ t.ticks.toNat)
    (ht : t.ticks.toNat < limit) (hlimit : limit ≤ 2 ^ 53) (exact : t.base.Exact limit) :
    nearest (t.place - s.place) = (t.ticks.toNat - s.ticks.toNat : ℚ) * t.base.tick := by
  have hs : s.ticks.toNat < limit := later.trans_lt ht
  have hcast : (t.ticks.toNat - s.ticks.toNat : ℚ) = (t.ticks.toNat - s.ticks.toNat : ℕ) := by
    rw [Nat.cast_sub later]
  rw [place_eq ht hlimit, place_eq hs hlimit, same, exact _ ht, exact _ hs, ← sub_mul, hcast]
  exact exact _ (by omega)

/-- A window that is not at the edge holds the distance of two timestamps if and only if it
holds the exact one. -/
theorem nsSince_le_iff (valid : t.base.Valid) (same : s.base = t.base)
    (later : s.ticks.toNat ≤ t.ticks.toNat) (ht : t.ticks.toNat < limit) (hlimit : limit ≤ 2 ^ 53)
    {window : Float} {w : ℚ} (hwindow : Denotes window w)
    (edge : s.ticks.toNat < t.ticks.toNat →
      t.base.Exact limit ∨ t.base.OffEdge limit w (t.ticks.toNat - s.ticks.toNat)) :
    t.nsSince s ≤ window ↔ (t.ticks.toNat - s.ticks.toNat : ℚ) * t.base.tick ≤ w := by
  rw [(denotes_nsSince valid (same ▸ valid)).le_iff hwindow]
  obtain hlt | heq := later.lt_or_eq
  · rcases edge hlt with exact | off
    · rw [distance_eq_of_exact same later ht hlimit exact]
    · have herror := abs_distance_sub_le valid same (later.trans_lt ht) ht hlimit
      rw [Timebase.OffEdge, Nat.cast_sub later] at off
      rw [abs_le] at herror
      obtain h | h := lt_abs.1 off
      · exact iff_of_true (by linarith [herror.2]) (by linarith)
      · exact iff_of_false (by linarith [herror.1]) (by linarith)
  · have hticks : s.ticks = t.ticks := UInt64.toNat_inj.1 heq
    have hplace : s.place = t.place := by rw [place, place, hticks, same]
    rw [hplace, sub_self, nearest_zero, heq, sub_self, zero_mul]

end Timestamp

end ListMode
