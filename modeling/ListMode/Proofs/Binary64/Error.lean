import ListMode.Proofs.Binary64.Nearest

/-!
# How far rounding moves a number

The nearest whole number is no further away than a half (`abs_halfEven_sub_le`), so the
nearest magnitude is no further away than half a quantum.  A quantum is a part of the
magnitude, one in 2^52 or less, unless the magnitude is so small that its quantum is the
least number there is (`abs_nearest_sub_le`).
-/

namespace ListMode.Binary64

theorem abs_halfEven_sub_le (y : ℚ) : |(halfEven y : ℚ) - y| ≤ 1 / 2 := by
  have hsplit : (⌊y⌋ : ℚ) = y - Int.fract y := by rw [Int.self_sub_fract]
  have hlow := Int.fract_nonneg y
  have hhigh := Int.fract_lt_one y
  unfold halfEven
  rw [abs_le]
  split
  · next h => constructor <;> linarith
  · split
    · next h =>
        obtain heven | hodd := Int.emod_two_eq_zero_or_one ⌊y⌋
        · rw [heven]
          push_cast
          constructor <;> linarith
        · rw [hodd]
          push_cast
          constructor <;> linarith
    · next h h' =>
        push_cast
        constructor <;> linarith

theorem abs_nearestMagnitude_sub_le (x : ℚ) :
    |nearestMagnitude x - x| ≤ 1 / 2 * 2 ^ quantum x := by
  have hpos := two_zpow_pos (quantum x)
  have hscaled : nearestMagnitude x - x =
      (halfEven (x / 2 ^ quantum x) - x / 2 ^ quantum x) * 2 ^ quantum x := by
    rw [nearestMagnitude, sub_mul, div_mul_cancel₀ _ hpos.ne']
  rw [hscaled, abs_mul, abs_of_pos hpos]
  exact mul_le_mul_of_nonneg_right (abs_halfEven_sub_le _) hpos.le

/-- Half a quantum is a small part of the magnitude, or of the least number. -/
theorem half_quantum_le {x : ℚ} (hx : 0 < x) :
    1 / 2 * 2 ^ quantum x ≤ max (x / 2 ^ 53) (2 ^ (-1075 : ℤ)) := by
  have half (e : ℤ) : (1 : ℚ) / 2 * 2 ^ (e + 1) = 2 ^ e := by
    rw [zpow_add_one₀ two_ne_zero]
    ring
  obtain h | h := le_total (-1074) (Int.log 2 x - 52)
  · have hq : quantum x = Int.log 2 x - 53 + 1 := by
      rw [quantum, max_eq_left h]
      ring
    have hlog : (2 : ℚ) ^ Int.log 2 x ≤ x := Int.zpow_log_le_self Nat.one_lt_two hx
    refine le_max_of_le_left ?_
    rw [hq, half, zpow_sub₀ two_ne_zero]
    exact div_le_div_of_nonneg_right hlog (by positivity)
  · refine le_max_of_le_right ?_
    rw [quantum, max_eq_right h]
    exact (half (-1075)).le

/-- Rounding moves a number by a small part of itself, or of the least number. -/
theorem abs_nearest_sub_le (x : ℚ) :
    |nearest x - x| ≤ max (|x| / 2 ^ 53) (2 ^ (-1075 : ℤ)) := by
  obtain h | rfl | h := lt_trichotomy x 0
  · have hneg : 0 < -x := neg_pos.2 h
    have hround : nearest x - x = -(nearestMagnitude (-x) - -x) := by
      rw [nearest, if_neg (not_le.2 h)]
      ring
    rw [hround, abs_neg, abs_of_neg h]
    exact (abs_nearestMagnitude_sub_le _).trans (half_quantum_le hneg)
  · rw [nearest_zero, sub_zero, abs_zero, zero_div]
    exact le_max_of_le_left le_rfl
  · rw [nearest_of_nonneg h.le, abs_of_pos h]
    exact (abs_nearestMagnitude_sub_le _).trans (half_quantum_le h)

/-- A whole number of 53 bits is exact. -/
theorem nearest_natCast {n : ℕ} (h : n < 2 ^ 53) : nearest n = n := by
  have hself := nearestMagnitude_eq_self h (e := 0) (by norm_num)
  rw [zpow_zero, mul_one] at hself
  rw [nearest_of_nonneg (Nat.cast_nonneg n), hself]

end ListMode.Binary64
