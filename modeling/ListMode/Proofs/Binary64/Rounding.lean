import Mathlib
import ListMode.Proofs.Binary64.Nearest

/-!
# What the model of floats rounds to

The logical model of `Float` rounds by shifting a mantissa to the right, with two
bits for what was shifted out.  Such a mantissa reads a rational (`Reads`): the part
it leaves out is the one its two bits tell of.  Shifting halves what is read
(`Reads.shiftRight`), so after the shift the mantissa reads the exact result in
multiples of its quantum, and rounding it gives the nearest of these
(`Reads.roundedMantissa`).  The outcome is `roundWithAccuracy_rounds`.
-/

namespace ListMode.Binary64

open Float.Model Float.Model.UnpackedFloat

/-! ## Mantissas with residual bits -/

/-- What an accuracy says of the part that a mantissa leaves out. -/
def Residue : Accuracy → ℚ → Prop
  | .exact, r => r = 0
  | .inexact .lt, r => 0 < r ∧ r < 1 / 2
  | .inexact .eq, r => r = 1 / 2
  | .inexact .gt, r => 1 / 2 < r ∧ r < 1

theorem Residue.nonneg_lt_one {acc : Accuracy} {r : ℚ} (h : Residue acc r) : 0 ≤ r ∧ r < 1 := by
  cases acc with
  | exact => simp_all [Residue]
  | inexact o =>
    cases o with
    | lt => exact ⟨h.1.le, by linarith [h.2]⟩
    | eq => rw [Residue] at h; constructor <;> linarith
    | gt => exact ⟨by linarith [h.1], h.2⟩

/-- The mantissa and its residual bits are those of a rational. -/
def Reads (em : ExtendedMantissa) (y : ℚ) : Prop := Residue em.accuracy (y - em.mantissa)

theorem reads_ofMantissaAndAccuracy {m : ℕ} {acc : Accuracy} {y : ℚ} (h : Residue acc (y - m)) :
    Reads (.ofMantissaAndAccuracy m acc) y := by
  cases acc with
  | exact => exact h
  | inexact o => cases o <;> exact h

theorem Reads.floor_eq {em : ExtendedMantissa} {y : ℚ} (h : Reads em y) : ⌊y⌋ = em.mantissa := by
  obtain ⟨hnonneg, hlt⟩ := h.nonneg_lt_one
  rw [Int.floor_eq_iff]
  push_cast
  constructor <;> linarith

/-- The last bit of the mantissa becomes the round bit, and the round bit is shifted
in with the rest. -/
theorem Reads.shiftRightOne {em : ExtendedMantissa} {y : ℚ} (h : Reads em y) :
    Reads em.shiftRightOne (y / 2) := by
  obtain ⟨m, r, s⟩ := em
  obtain ⟨k, rfl | rfl⟩ := m.even_or_odd'
  · have hdiv : 2 * k / 2 = k := by omega
    have hmod : 2 * k % 2 = 0 := by omega
    cases r <;> cases s <;>
      simp only [Reads, Residue, ExtendedMantissa.shiftRightOne, ExtendedMantissa.accuracy, hdiv,
        hmod, bne_self_eq_false, Bool.or_false, Bool.or_true] at h ⊢ <;>
      push_cast at h
    · linarith
    · constructor <;> linarith [h.1, h.2]
    · constructor <;> linarith
    · constructor <;> linarith [h.1, h.2]
  · have hdiv : (2 * k + 1) / 2 = k := by omega
    have hmod : ((2 * k + 1) % 2 != 0) = true := by simp
    cases r <;> cases s <;>
      simp only [Reads, Residue, ExtendedMantissa.shiftRightOne, ExtendedMantissa.accuracy, hdiv,
        hmod, Bool.or_false, Bool.or_true] at h ⊢ <;>
      push_cast at h
    · linarith
    · constructor <;> linarith [h.1, h.2]
    · constructor <;> linarith
    · constructor <;> linarith [h.1, h.2]

theorem Reads.shiftRight {em : ExtendedMantissa} {y : ℚ} (h : Reads em y) (k : ℕ) :
    Reads (em >>> k) (y / 2 ^ k) := by
  induction k with
  | zero => simpa [HShiftRight.hShiftRight, Nat.repeat] using h
  | succ k ih =>
    rw [pow_succ, ← div_div]
    exact ih.shiftRightOne

theorem Reads.roundedMantissa {em : ExtendedMantissa} {y : ℚ} (h : Reads em y) :
    (em.roundedMantissa : ℤ) = halfEven y := by
  have hfract : Int.fract y = y - em.mantissa := by rw [Int.fract, h.floor_eq, Int.cast_natCast]
  rw [halfEven, hfract, h.floor_eq, ExtendedMantissa.roundedMantissa]
  rw [Reads] at h
  cases hacc : em.accuracy with
  | exact =>
    rw [hacc, Residue] at h
    rw [if_pos (by rw [h]; norm_num), Accuracy.roundToNearestEven]
  | inexact o =>
    rw [hacc] at h
    cases o with
    | lt => rw [if_pos h.2, Accuracy.roundToNearestEven]
    | eq =>
      rw [Residue] at h
      rw [if_neg (by rw [h]; norm_num), if_pos h, Accuracy.roundToNearestEven]
      push_cast
      rfl
    | gt =>
      rw [if_neg h.1.not_gt, if_neg h.1.ne', Accuracy.roundToNearestEven]
      push_cast
      rfl

/-! ## Shifting to the quantum -/

theorem targetExponent_eq (m : ℕ) (e : ℤ) :
    Format.binary64.targetExponent (totalExponent m e) = max (m.log2 + e - 52) (-1074) := by
  simp only [Format.targetExponent, totalExponent, Format.mantissaBits, Format.minExponent]
  omega

theorem log_mul_two_zpow {m : ℕ} {y : ℚ} (hm : 0 < m) (hy : ⌊y⌋ = m) (e : ℤ) :
    Int.log 2 (y * 2 ^ e) = m.log2 + e := by
  obtain ⟨hle, hlt⟩ := Int.floor_eq_iff.1 hy
  have hlow : (2 : ℚ) ^ m.log2 ≤ y := by
    have hself := Nat.log2_self_le hm.ne'
    calc (2 : ℚ) ^ m.log2 ≤ m := by exact_mod_cast hself
      _ ≤ y := by exact_mod_cast hle
  have hhigh : y < (2 : ℚ) ^ (m.log2 + 1) := by
    have hself : m + 1 ≤ 2 ^ (m.log2 + 1) := Nat.lt_log2_self
    calc y < m + 1 := by exact_mod_cast hlt
      _ ≤ 2 ^ (m.log2 + 1) := by exact_mod_cast hself
  have hpos : 0 < y * 2 ^ e := mul_pos ((by positivity : (0 : ℚ) < 2 ^ m.log2).trans_le hlow)
    (two_zpow_pos e)
  have hfrom : ((2 : ℕ) : ℚ) ^ (m.log2 + e : ℤ) ≤ y * 2 ^ e := by
    rw [Nat.cast_ofNat, zpow_add₀ two_ne_zero, zpow_natCast]
    exact mul_le_mul_of_nonneg_right hlow (two_zpow_pos e).le
  have hto : y * 2 ^ e < ((2 : ℕ) : ℚ) ^ (m.log2 + e + 1 : ℤ) := by
    rw [Nat.cast_ofNat, add_right_comm, zpow_add₀ two_ne_zero]
    exact mul_lt_mul_of_pos_right (by exact_mod_cast hhigh) (two_zpow_pos e)
  have hge := (Int.zpow_le_iff_le_log Nat.one_lt_two hpos).1 hfrom
  have hlog := (Int.lt_zpow_iff_log_lt Nat.one_lt_two hpos).1 hto
  omega

section Shifting

variable {m : ℕ} {e : ℤ} {acc : Accuracy} {y : ℚ}

theorem quantum_eq_targetExponent (hm : 0 < m) (hres : Residue acc (y - m)) :
    quantum (y * 2 ^ e) = Format.binary64.targetExponent (totalExponent m e) := by
  have hy : ⌊y⌋ = m := (reads_ofMantissaAndAccuracy hres).floor_eq.trans (by
    cases acc with
    | exact => rfl
    | inexact o => cases o <;> rfl)
  rw [targetExponent_eq, quantum, log_mul_two_zpow hm hy]

/-- The first shift reads the exact result in multiples of its quantum. -/
theorem shiftToTargetExponent_reads (hm : 0 < m) (hres : Residue acc (y - m))
    (he : e ≤ quantum (y * 2 ^ e)) :
    (shiftToTargetExponent Format.binary64 m e acc).2 = quantum (y * 2 ^ e) ∧
      Reads (shiftToTargetExponent Format.binary64 m e acc).1
        (y * 2 ^ e / 2 ^ quantum (y * 2 ^ e)) := by
  have hq := quantum_eq_targetExponent (e := e) hm hres
  obtain ⟨k, hk⟩ := Int.le.dest he
  have hshift : (Format.binary64.targetExponent (totalExponent m e) - e).toNat = k := by
    rw [← hq, ← hk]
    omega
  have hcut : y * 2 ^ e / 2 ^ quantum (y * 2 ^ e) = y / 2 ^ k := by
    rw [← hk, zpow_add₀ two_ne_zero, zpow_natCast, mul_comm y,
      mul_div_mul_left _ _ (two_zpow_pos e).ne']
  simp only [shiftToTargetExponent, shiftToExponent, hshift, hcut]
  exact ⟨hk, (reads_ofMantissaAndAccuracy hres).shiftRight k⟩

/-- The second shift has nothing to do for a mantissa that did not overflow. -/
theorem shiftToTargetExponent_of_lt (hm : m < 2 ^ 53) (he : -1074 ≤ e) :
    shiftToTargetExponent Format.binary64 m e .exact = (⟨m, false, false⟩, e) := by
  have hlog : m.log2 ≤ 52 := by
    by_cases h : m = 0
    · simp [h]
    · exact Nat.le_of_lt_succ ((Nat.log2_lt h).2 hm)
  have hshift : (Format.binary64.targetExponent (totalExponent m e) - e).toNat = 0 := by
    rw [targetExponent_eq]
    omega
  simp only [shiftToTargetExponent, shiftToExponent, hshift]
  simp [HShiftRight.hShiftRight, Nat.repeat, ExtendedMantissa.ofMantissaAndAccuracy]

theorem shiftToTargetExponent_overflow (he : -1074 ≤ e) :
    shiftToTargetExponent Format.binary64 (2 ^ 53) e .exact = (⟨2 ^ 52, false, false⟩, e + 1) := by
  have hshift : (Format.binary64.targetExponent (totalExponent (2 ^ 53) e) - e).toNat = 1 := by
    rw [targetExponent_eq, Nat.log2_two_pow]
    omega
  simp only [shiftToTargetExponent, shiftToExponent, hshift]
  rfl

end Shifting

/-! ## The outcome -/

/-- A mantissa and an exponent as binary64 has them: the mantissa has 53 bits, or fewer
at the least exponent. -/
structure Canonical (m : ℕ) (e : ℤ) : Prop where
  mantissa : m < 2 ^ 53
  exponent : -1074 ≤ e
  full : 2 ^ 52 ≤ m ∨ e = -1074

/-- The float is the magnitude rounded, with a sign. -/
inductive Rounds (s : Sign) (x : ℚ) : UnpackedFloat → Prop where
  | zero (none : nearestMagnitude x = 0) : Rounds s x (.zero s)
  | finite {m e pos} (shape : Canonical m e) (value : nearestMagnitude x = m * 2 ^ e) :
      Rounds s x (.finite s m e pos)

/-- After the second shift the mantissa has its place, also when rounding made it
overflow. -/
theorem rounds_of_mantissa (s : Sign) {x : ℚ} {r : ℕ} {q : ℤ} (hr : r ≤ 2 ^ 53) (hq : -1074 ≤ q)
    (full : 2 ^ 52 ≤ r ∨ q = -1074) (hvalue : nearestMagnitude x = r * 2 ^ q) :
    let last := shiftToTargetExponent Format.binary64 r q .exact
    Rounds s x
      (if h : last.1.mantissa = 0 then .zero s
        else .finite s last.1.mantissa last.2 (Nat.pos_of_ne_zero h)) := by
  intro last
  obtain hlt | rfl := hr.lt_or_eq
  · have hlast : last = (⟨r, false, false⟩, q) := shiftToTargetExponent_of_lt hlt hq
    rw [hlast]
    split
    · next hzero =>
      refine .zero ?_
      rw [hvalue, show r = 0 from hzero, Nat.cast_zero, zero_mul]
    · exact .finite ⟨hlt, hq, full⟩ hvalue
  · have hlast : last = (⟨2 ^ 52, false, false⟩, q + 1) := shiftToTargetExponent_overflow hq
    rw [hlast, dif_neg (by norm_num)]
    refine .finite ⟨by norm_num, by omega, .inl le_rfl⟩ ?_
    rw [hvalue, zpow_add_one₀ two_ne_zero]
    push_cast
    ring

/-- Rounding a mantissa that was cut off gives the exact result rounded, as long as
no bit is missing that the result has room for. -/
theorem roundWithAccuracy_rounds (s : Sign) {m : ℕ} {e : ℤ} {acc : Accuracy} {y : ℚ} (hm : 0 < m)
    (hres : Residue acc (y - m)) (he : e ≤ quantum (y * 2 ^ e)) :
    Rounds s (y * 2 ^ e) (roundWithAccuracy Format.binary64 s m e acc) := by
  have hy : 0 < y := by
    have hpos : (0 : ℚ) < m := by exact_mod_cast hm
    linarith [hres.nonneg_lt_one.1]
  have hx : 0 < y * 2 ^ e := mul_pos hy (two_zpow_pos e)
  obtain ⟨hexp, hreads⟩ := shiftToTargetExponent_reads hm hres he
  generalize hfirst : shiftToTargetExponent Format.binary64 m e acc = first at hexp hreads
  obtain ⟨em, q⟩ := first
  change q = quantum (y * 2 ^ e) at hexp
  subst hexp
  have hround : (em.roundedMantissa : ℤ) = halfEven (y * 2 ^ e / 2 ^ quantum (y * 2 ^ e)) :=
    hreads.roundedMantissa
  have hmin : -1074 ≤ quantum (y * 2 ^ e) := le_max_right _ _
  unfold roundWithAccuracy
  simp only [hfirst]
  refine rounds_of_mantissa s ?_ hmin ?_ ?_
  · have hle := halfEven_quantum_le (k := 53) (lt_two_zpow_quantum (x := y * 2 ^ e) _ le_rfl).le
    rw [← hround] at hle
    exact_mod_cast hle
  · obtain hgt | heq := hmin.lt_or_eq
    · have hge := le_halfEven_quantum (k := 52) (two_zpow_quantum_le hx hgt)
      rw [← hround] at hge
      exact .inl (by exact_mod_cast hge)
    · exact .inr heq.symm
  · rw [nearestMagnitude, ← hround, Int.cast_natCast]

theorem decreaseExponent_value (m : ℕ) (e q : ℤ) :
    ((decreaseExponent m e q).1 : ℚ) * 2 ^ (decreaseExponent m e q).2 = m * 2 ^ e := by
  simp only [decreaseExponent, Nat.shiftLeft_eq, Nat.cast_mul, Nat.cast_pow, Nat.cast_ofNat]
  rw [mul_assoc, ← zpow_natCast, ← zpow_add₀ two_ne_zero, add_sub_cancel]

/-- A mantissa with too few bits is given more before it is rounded. -/
theorem round_rounds (s : Sign) {m : ℕ} (hm : 0 < m) (e : ℤ) :
    Rounds s (m * 2 ^ e) (UnpackedFloat.round Format.binary64 s m e) := by
  have hexact : Residue .exact ((m : ℚ) - m) := sub_self _
  have hq := quantum_eq_targetExponent (e := e) hm hexact
  unfold UnpackedFloat.round
  simp only [← hq]
  have hvalue := decreaseExponent_value m e (quantum (m * 2 ^ e))
  have hlow : (decreaseExponent m e (quantum (m * 2 ^ e))).2 ≤ quantum (m * 2 ^ e) := by
    simp only [decreaseExponent]
    omega
  have hpos : 0 < (decreaseExponent m e (quantum (m * 2 ^ e))).1 := by
    simp only [decreaseExponent, Nat.shiftLeft_eq]
    exact Nat.mul_pos hm (Nat.two_pow_pos _)
  generalize decreaseExponent m e (quantum (m * 2 ^ e)) = low at *
  rw [← hvalue] at hlow ⊢
  exact roundWithAccuracy_rounds s hpos (sub_self _) hlow

end ListMode.Binary64
