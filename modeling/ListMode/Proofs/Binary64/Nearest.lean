import Mathlib.Algebra.Order.Floor.Ring
import Mathlib.Data.Int.Log
import Mathlib.Data.Rat.Floor
import Mathlib.Tactic.Linarith
import Mathlib.Tactic.Positivity

/-!
# Rounding to binary64

The rational that a result of binary64 arithmetic stands for (`nearest`), as long
as it is in range: the multiple of a power of two that is nearest to the exact
result, and of two the even one.  The power is the one that leaves 53 bits, and no
smaller than the least number there is (`quantum`).

Rounding keeps order (`nearest_mono`).  Where two numbers have one quantum this is
the order of whole numbers (`halfEven_mono`).  Where they have not, a power of two
stands between them, and a power of two is its own rounding.
-/

namespace ListMode.Binary64

/-! ## Whole numbers -/

/-- The whole number nearest to a rational; of two the even one. -/
def halfEven (y : ℚ) : ℤ :=
  if Int.fract y < 1 / 2 then ⌊y⌋
  else if Int.fract y = 1 / 2 then ⌊y⌋ + ⌊y⌋ % 2
  else ⌊y⌋ + 1

@[simp] theorem halfEven_intCast (n : ℤ) : halfEven n = n := by
  simp [halfEven]

theorem floor_le_halfEven (y : ℚ) : ⌊y⌋ ≤ halfEven y := by
  unfold halfEven
  split
  · exact le_rfl
  · split <;> omega

theorem halfEven_le_floor_add_one (y : ℚ) : halfEven y ≤ ⌊y⌋ + 1 := by
  unfold halfEven
  split
  · omega
  · split <;> omega

theorem halfEven_mono {x y : ℚ} (h : x ≤ y) : halfEven x ≤ halfEven y := by
  obtain hlt | heq := (Int.floor_le_floor h).lt_or_eq
  · calc halfEven x ≤ ⌊x⌋ + 1 := halfEven_le_floor_add_one x
      _ ≤ ⌊y⌋ := hlt
      _ ≤ halfEven y := floor_le_halfEven y
  · have hfract : Int.fract x ≤ Int.fract y := by
      rw [Int.fract, Int.fract, heq]
      exact sub_le_sub_right h _
    unfold halfEven
    rw [heq]
    split
    · split
      · exact le_rfl
      · split <;> omega
    · next hx =>
      rw [if_neg fun hy => hx (hfract.trans_lt hy)]
      split
      · split <;> omega
      · next hx' =>
        have hgt : 1 / 2 < Int.fract x := lt_of_le_of_ne (not_lt.1 hx) (Ne.symm hx')
        rw [if_neg (hgt.trans_le hfract).ne']

/-! ## Magnitudes -/

/-- The exponent of the power of two that magnitudes near `x` are multiples of. -/
def quantum (x : ℚ) : ℤ := max (Int.log 2 x - 52) (-1074)

/-- A magnitude rounded to binary64. -/
def nearestMagnitude (x : ℚ) : ℚ := halfEven (x / 2 ^ quantum x) * 2 ^ quantum x

theorem two_zpow_pos (e : ℤ) : (0 : ℚ) < 2 ^ e := zpow_pos two_pos e

theorem magnitude_pos {m : ℕ} (hm : 0 < m) (e : ℤ) : (0 : ℚ) < m * 2 ^ e :=
  mul_pos (by exact_mod_cast hm) (two_zpow_pos e)

theorem two_pow_mul_two_zpow (k : ℕ) (e : ℤ) : (((2 ^ k : ℕ) : ℤ) : ℚ) * 2 ^ e = 2 ^ (e + k) := by
  rw [Int.cast_natCast, Nat.cast_pow, Nat.cast_ofNat, ← zpow_natCast, ← zpow_add₀ two_ne_zero,
    add_comm]

theorem quantum_mono {x y : ℚ} (hx : 0 < x) (h : x ≤ y) : quantum x ≤ quantum y :=
  max_le_max_right _ (sub_le_sub_right (Int.log_mono_right hx h) 52)

theorem lt_two_zpow_quantum {x : ℚ} (q : ℤ) (h : quantum x ≤ q) : x < 2 ^ (q + 53) := by
  have hlog : Int.log 2 x + 1 ≤ q + 53 := by
    have := (le_max_left _ _).trans h
    omega
  exact (Int.lt_zpow_succ_log_self Nat.one_lt_two x).trans_le
    (zpow_le_zpow_right₀ one_le_two hlog)

theorem two_zpow_quantum_le {x : ℚ} (hx : 0 < x) (h : -1074 < quantum x) :
    2 ^ (quantum x + 52) ≤ x := by
  have hq : quantum x = Int.log 2 x - 52 := by
    unfold quantum at h ⊢
    omega
  rw [hq, sub_add_cancel]
  exact Int.zpow_log_le_self Nat.one_lt_two hx

theorem halfEven_quantum_le {x : ℚ} {k : ℕ} (h : x ≤ 2 ^ (quantum x + k)) :
    halfEven (x / 2 ^ quantum x) ≤ (2 ^ k : ℕ) := by
  have hcut : x / 2 ^ quantum x ≤ ((2 ^ k : ℕ) : ℤ) := by
    rwa [div_le_iff₀ (two_zpow_pos _), two_pow_mul_two_zpow]
  simpa only [halfEven_intCast] using halfEven_mono hcut

theorem le_halfEven_quantum {x : ℚ} {k : ℕ} (h : 2 ^ (quantum x + k) ≤ x) :
    (2 ^ k : ℕ) ≤ halfEven (x / 2 ^ quantum x) := by
  have hcut : ((2 ^ k : ℕ) : ℤ) ≤ x / 2 ^ quantum x := by
    rwa [le_div_iff₀ (two_zpow_pos _), two_pow_mul_two_zpow]
  simpa only [halfEven_intCast] using halfEven_mono hcut

/-- A magnitude below a power of two is not rounded past it, as long as the power is a
multiple of its quantum. -/
theorem nearestMagnitude_le {x : ℚ} {n : ℤ} (hn : quantum x ≤ n) (h : x ≤ 2 ^ n) :
    nearestMagnitude x ≤ 2 ^ n := by
  obtain ⟨k, rfl⟩ := Int.le.dest hn
  rw [← two_pow_mul_two_zpow]
  exact mul_le_mul_of_nonneg_right (by exact_mod_cast halfEven_quantum_le h) (two_zpow_pos _).le

theorem le_nearestMagnitude {x : ℚ} {n : ℤ} (hn : quantum x ≤ n) (h : 2 ^ n ≤ x) :
    2 ^ n ≤ nearestMagnitude x := by
  obtain ⟨k, rfl⟩ := Int.le.dest hn
  rw [← two_pow_mul_two_zpow]
  exact mul_le_mul_of_nonneg_right (by exact_mod_cast le_halfEven_quantum h) (two_zpow_pos _).le

@[simp] theorem nearestMagnitude_zero : nearestMagnitude 0 = 0 := by
  have h : halfEven 0 = 0 := by simpa using halfEven_intCast 0
  simp [nearestMagnitude, h]

theorem nearestMagnitude_nonneg {x : ℚ} (hx : 0 ≤ x) : 0 ≤ nearestMagnitude x := by
  have hfloor : 0 ≤ ⌊x / 2 ^ quantum x⌋ := Int.floor_nonneg.2 (div_nonneg hx (two_zpow_pos _).le)
  exact mul_nonneg (by exact_mod_cast hfloor.trans (floor_le_halfEven _)) (two_zpow_pos _).le

theorem nearestMagnitude_mono {x y : ℚ} (hx : 0 ≤ x) (h : x ≤ y) :
    nearestMagnitude x ≤ nearestMagnitude y := by
  obtain rfl | hx := hx.eq_or_lt
  · rw [nearestMagnitude_zero]
    exact nearestMagnitude_nonneg h
  · obtain hlt | heq := (quantum_mono hx h).lt_or_eq
    · -- the power of two where the larger quantum begins
      have hbelow : x ≤ 2 ^ (quantum y + 52) := by
        have hlast := lt_two_zpow_quantum (x := x) (quantum y - 1) (by omega)
        have hexp : quantum y - 1 + 53 = quantum y + 52 := by ring
        rw [hexp] at hlast
        exact hlast.le
      have habove : 2 ^ (quantum y + 52) ≤ y :=
        two_zpow_quantum_le (hx.trans_le h) ((le_max_right _ _).trans_lt hlt)
      calc nearestMagnitude x ≤ 2 ^ (quantum y + 52) :=
            nearestMagnitude_le (by omega) hbelow
        _ ≤ nearestMagnitude y := le_nearestMagnitude (by omega) habove
    · have hcut : x / 2 ^ quantum x ≤ y / 2 ^ quantum x :=
        div_le_div_of_nonneg_right h (two_zpow_pos _).le
      unfold nearestMagnitude
      rw [← heq]
      exact mul_le_mul_of_nonneg_right (by exact_mod_cast halfEven_mono hcut) (two_zpow_pos _).le

/-- A multiple of its quantum is its own rounding. -/
theorem nearestMagnitude_eq_self {m : ℕ} {e : ℤ} (hm : m < 2 ^ 53) (he : -1074 ≤ e) :
    nearestMagnitude (m * 2 ^ e) = m * 2 ^ e := by
  obtain rfl | hpos := m.eq_zero_or_pos
  · simp
  · have hx : (0 : ℚ) < m * 2 ^ e := magnitude_pos hpos e
    have hq : quantum (m * 2 ^ e) ≤ e := by
      have hlt : (m : ℚ) * 2 ^ e < (2 : ℕ) ^ (e + 53) := by
        rw [Nat.cast_ofNat, add_comm, zpow_add₀ two_ne_zero]
        exact mul_lt_mul_of_pos_right (by exact_mod_cast hm) (two_zpow_pos e)
      have hlog := (Int.lt_zpow_iff_log_lt Nat.one_lt_two hx).1 hlt
      exact max_le (by omega) he
    obtain ⟨k, hk⟩ := Int.le.dest hq
    have hcut : (m : ℚ) * 2 ^ e / 2 ^ quantum (m * 2 ^ e) = ((m * 2 ^ k : ℕ) : ℤ) := by
      rw [div_eq_iff (two_zpow_pos _).ne', Nat.cast_mul, Int.cast_mul, mul_assoc,
        two_pow_mul_two_zpow, hk, Int.cast_natCast]
    rw [nearestMagnitude, hcut, halfEven_intCast, ← hcut, div_mul_cancel₀ _ (two_zpow_pos _).ne']

/-! ## Numbers with a sign -/

/-- A rational rounded to binary64. -/
def nearest (x : ℚ) : ℚ := if 0 ≤ x then nearestMagnitude x else -nearestMagnitude (-x)

theorem nearest_of_nonneg {x : ℚ} (h : 0 ≤ x) : nearest x = nearestMagnitude x := if_pos h

theorem nearest_neg (x : ℚ) : nearest (-x) = -nearest x := by
  obtain h | rfl | h := lt_trichotomy x 0
  · rw [nearest, if_pos (by linarith), nearest, if_neg (by linarith), neg_neg]
  · simp [nearest]
  · rw [nearest, if_neg (by linarith), nearest, if_pos h.le, neg_neg]

@[simp] theorem nearest_zero : nearest 0 = 0 := by simp [nearest]

theorem nearest_two_zpow {n : ℤ} (h : -1074 ≤ n) : nearest (2 ^ n) = 2 ^ n := by
  have hself := nearestMagnitude_eq_self (m := 1) (by norm_num) h
  rw [Nat.cast_one, one_mul] at hself
  rw [nearest_of_nonneg (two_zpow_pos n).le, hself]

theorem nearest_mono {x y : ℚ} (h : x ≤ y) : nearest x ≤ nearest y := by
  unfold nearest
  split
  · next hx =>
    rw [if_pos (hx.trans h)]
    exact nearestMagnitude_mono hx h
  · next hx =>
    have hneg : 0 ≤ nearestMagnitude (-x) := nearestMagnitude_nonneg (by linarith)
    split
    · next hy => linarith [nearestMagnitude_nonneg hy]
    · next hy => linarith [nearestMagnitude_mono (x := -y) (y := -x) (by linarith) (by linarith)]

end ListMode.Binary64
