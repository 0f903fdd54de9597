import ListMode.Proofs.Binary64.Numbers

/-!
# Binary64 arithmetic

Difference, product and quotient of two floats that are numbers, and the float of a
whole number: each stands for the exact result rounded, as long as that is in range
(`Denotes.sub`, `Denotes.mul`, `Denotes.div`, `denotes_uint64`).  The range is left
one power of two below the largest number, which is more than times need.
-/

namespace ListMode.Binary64

open Float.Model Float.Model.UnpackedFloat

/-! ## Results in range -/

theorem Holds.nearest_eq {u : UnpackedFloat} {p : ℚ} (h : Holds u p) : nearest p = p := by
  cases h with
  | zero => exact nearest_zero
  | @finite s m e pos shape bound =>
    have hself := nearestMagnitude_eq_self shape.mantissa shape.exponent
    have hmag : nearest (m * 2 ^ e) = m * 2 ^ e :=
      (nearest_of_nonneg (magnitude_pos pos e).le).trans hself
    cases s with
    | positive => exact hmag
    | negative => rw [signed, nearest_neg, hmag]

theorem Rounds.holds {s : Sign} {x : ℚ} {u : UnpackedFloat} (h : Rounds s x u) (hx : 0 ≤ x)
    (range : x ≤ 2 ^ (1023 : ℤ)) : Holds u (nearest (signed s x)) := by
  have hsigned : nearest (signed s x) = signed s (nearestMagnitude x) := by
    cases s with
    | positive => exact nearest_of_nonneg hx
    | negative => rw [signed, nearest_neg, nearest_of_nonneg hx, signed]
  rw [hsigned]
  cases h with
  | zero none =>
    have hzero : signed s 0 = 0 := by cases s <;> simp [signed]
    rw [none, hzero]
    exact .zero
  | @finite m e pos shape value =>
    rw [value]
    refine .finite shape ?_
    obtain hfull | hleast := shape.full
    · have hpos : 0 < x := hx.lt_of_ne' fun hzero => by
        have hmag : (0 : ℚ) < m * 2 ^ e := magnitude_pos pos e
        rw [hzero, nearestMagnitude_zero] at value
        linarith
      have hquantum : quantum x ≤ 1023 := by
        refine (quantum_mono hpos range).trans ?_
        have hlog : Int.log 2 ((2 : ℚ) ^ (1023 : ℤ)) = 1023 := by
          exact_mod_cast Int.log_zpow Nat.one_lt_two (R := ℚ) 1023
        rw [quantum, hlog]
        norm_num
      have hle := nearestMagnitude_le hquantum range
      have hpow : (2 : ℚ) ^ (52 + e) ≤ 2 ^ (1023 : ℤ) := by
        rw [zpow_add₀ two_ne_zero]
        refine le_trans ?_ (value ▸ hle)
        exact mul_le_mul_of_nonneg_right (by exact_mod_cast hfull) (two_zpow_pos e).le
      have := (zpow_le_zpow_iff_right₀ one_lt_two).1 hpow
      omega
    · omega

/-! ## Operations -/

theorem signed_neg (s : Sign) (x : ℚ) : signed (-s) x = -signed s x := by
  cases s with
  | positive => rfl
  | negative => exact (neg_neg x).symm

theorem signed_mul (s t : Sign) (x y : ℚ) : signed (s * t) (x * y) = signed s x * signed t y := by
  cases s with
  | positive =>
    cases t with
    | positive => rfl
    | negative => exact (mul_neg x y).symm
  | negative =>
    cases t with
    | positive => exact (neg_mul x y).symm
    | negative => exact (neg_mul_neg x y).symm

theorem signed_div (s t : Sign) (x y : ℚ) : signed (s / t) (x / y) = signed s x / signed t y := by
  cases s with
  | positive =>
    cases t with
    | positive => rfl
    | negative => exact (div_neg x).symm
  | negative =>
    cases t with
    | positive => exact (neg_div y x).symm
    | negative => exact (neg_div_neg_eq x y).symm

theorem abs_signed (s : Sign) {x : ℚ} (hx : 0 ≤ x) : |signed s x| = x := by
  cases s with
  | positive => exact abs_of_nonneg hx
  | negative => exact (abs_neg x).trans (abs_of_nonneg hx)

theorem cast_apply (s : Sign) (n : ℕ) : ((s.apply n : ℤ) : ℚ) = signed s n := by
  cases s <;> simp [Sign.apply, signed]

theorem normalize_holds {m e : ℤ} (range : |(m : ℚ) * 2 ^ e| ≤ 2 ^ (1023 : ℤ)) (s : Sign) :
    Holds (UnpackedFloat.normalize Format.binary64 m e s) (nearest (m * 2 ^ e)) := by
  have habs : |(m : ℚ) * 2 ^ e| = m.natAbs * 2 ^ e := by
    rw [abs_mul, abs_of_pos (two_zpow_pos e), Nat.cast_natAbs, Int.cast_abs]
  have hmag : (0 : ℚ) ≤ m.natAbs * 2 ^ e := mul_nonneg (Nat.cast_nonneg _) (two_zpow_pos e).le
  rw [habs] at range
  obtain hlt | rfl | hgt := lt_trichotomy m 0
  · have hvalue : (m : ℚ) * 2 ^ e = signed .negative (m.natAbs * 2 ^ e) := by
      rw [signed, ← neg_mul, Nat.cast_natAbs, abs_of_neg hlt, Int.cast_neg, neg_neg]
    have hnat : (-m).toNat = m.natAbs := by omega
    rw [hvalue, UnpackedFloat.normalize, Int.compare_eq_lt.2 hlt, hnat]
    exact (round_rounds .negative (Int.natAbs_pos.2 hlt.ne) e).holds hmag range
  · rw [Int.cast_zero, zero_mul, nearest_zero]
    exact .zero
  · have hvalue : (m : ℚ) * 2 ^ e = signed .positive (m.natAbs * 2 ^ e) := by
      rw [signed, Nat.cast_natAbs, abs_of_pos hgt]
    have hnat : m.toNat = m.natAbs := by omega
    rw [hvalue, UnpackedFloat.normalize, Int.compare_eq_gt.2 hgt, hnat]
    exact (round_rounds .positive (Int.natAbs_pos.2 hgt.ne') e).holds hmag range

theorem decreaseExponent_of_le {m : ℕ} {e q : ℤ} (h : q ≤ e) :
    ((decreaseExponent m e q).1 : ℚ) * 2 ^ q = m * 2 ^ e := by
  have hexp : (decreaseExponent m e q).2 = q := by
    simp only [decreaseExponent]
    omega
  simpa only [hexp] using decreaseExponent_value m e q

/-- A difference of two numbers is taken in multiples of the smaller power. -/
theorem signed_sub_signed (s t : Sign) (m n : ℕ) (e f : ℤ) :
    signed s (m * 2 ^ e) - signed t (n * 2 ^ f) =
      ((s.apply (decreaseExponent m e (min e f)).1 -
        t.apply (decreaseExponent n f (min e f)).1 : ℤ) : ℚ) * 2 ^ min e f := by
  have scaled : ∀ (s : Sign) (x y : ℚ), signed s x * y = signed s (x * y) := by
    intro s x y
    cases s with
    | positive => rfl
    | negative => exact neg_mul x y
  rw [Int.cast_sub, cast_apply, cast_apply, sub_mul, scaled, scaled,
    decreaseExponent_of_le (min_le_left e f), decreaseExponent_of_le (min_le_right e f)]

theorem Holds.sub {u v : UnpackedFloat} {p q : ℚ} (hu : Holds u p) (hv : Holds v q)
    (range : |p - q| ≤ 2 ^ (1023 : ℤ)) :
    Holds (UnpackedFloat.sub Format.binary64 u v) (nearest (p - q)) := by
  cases hu with
  | @zero s =>
    cases hv with
    | @zero t =>
      rw [sub_zero, nearest_zero, UnpackedFloat.sub]
      split <;> exact .zero
    | @finite t n f pos shape bound =>
      have hneg : Holds (.finite (-t) n f pos) (signed (-t) (n * 2 ^ f)) := .finite shape bound
      rw [zero_sub, ← signed_neg, hneg.nearest_eq]
      exact hneg
  | @finite s m e pos shape bound =>
    cases hv with
    | @zero t =>
      have hself : Holds (.finite s m e pos) (signed s (m * 2 ^ e)) := .finite shape bound
      rw [sub_zero, hself.nearest_eq]
      exact hself
    | @finite t n f pos' shape' bound' =>
      rw [signed_sub_signed] at range ⊢
      exact normalize_holds range .positive

/-- A product of mantissas has all bits that the result has room for. -/
theorem Canonical.mul_room {m n : ℕ} {e f : ℤ} (hm : Canonical m e) (hn : Canonical n f)
    (pos : 0 < m) (pos' : 0 < n) : e + f ≤ quantum (((m * n : ℕ) : ℚ) * 2 ^ (e + f)) := by
  have hpos : 0 < m * n := Nat.mul_pos pos pos'
  have hlog (h : 2 ^ 52 ≤ m * n) : 52 ≤ (m * n).log2 := (Nat.le_log2 hpos.ne').2 h
  have hexact : Residue .exact (((m * n : ℕ) : ℚ) - (m * n : ℕ)) := sub_self _
  rw [quantum_eq_targetExponent hpos hexact, targetExponent_eq]
  obtain hfull | hleast := hm.full
  · have := hlog (hfull.trans (Nat.le_mul_of_pos_right m pos'))
    omega
  · obtain hfull' | hleast' := hn.full
    · have := hlog (hfull'.trans (Nat.le_mul_of_pos_left n pos))
      omega
    · omega

theorem Holds.mul {u v : UnpackedFloat} {p q : ℚ} (hu : Holds u p) (hv : Holds v q)
    (range : |p * q| ≤ 2 ^ (1023 : ℤ)) :
    Holds (UnpackedFloat.mul Format.binary64 u v) (nearest (p * q)) := by
  cases hu with
  | zero =>
    rw [zero_mul, nearest_zero]
    cases hv <;> exact .zero
  | @finite s m e pos shape bound =>
    cases hv with
    | zero =>
      rw [mul_zero, nearest_zero]
      exact .zero
    | @finite t n f pos' shape' bound' =>
      have hexact : Residue .exact (((m * n : ℕ) : ℚ) - (m * n : ℕ)) := sub_self _
      have hrounds := roundWithAccuracy_rounds (s * t) (Nat.mul_pos pos pos') hexact
        (shape.mul_room shape' pos pos')
      have hvalue : ((m * n : ℕ) : ℚ) * 2 ^ (e + f) = m * 2 ^ e * (n * 2 ^ f) := by
        rw [zpow_add₀ two_ne_zero]
        push_cast
        ring
      have hnonneg : (0 : ℚ) ≤ m * 2 ^ e * (n * 2 ^ f) :=
        (mul_pos (magnitude_pos pos e) (magnitude_pos pos' f)).le
      rw [← signed_mul, abs_signed _ hnonneg] at range
      rw [hvalue] at hrounds
      rw [← signed_mul]
      exact hrounds.holds hnonneg range

theorem residue_accuracyOfFraction {r n : ℕ} (h : r < n) :
    Residue (accuracyOfFraction r n) ((r : ℚ) / n) := by
  have hn : (0 : ℚ) < n := by exact_mod_cast (Nat.zero_le r).trans_lt h
  unfold accuracyOfFraction
  split
  · next hzero => simp [Residue, hzero]
  · next hne =>
    have hr : (0 : ℚ) < r := by exact_mod_cast Nat.pos_of_ne_zero hne
    obtain hlt | heq | hgt := lt_trichotomy (2 * r) n
    · rw [Nat.compare_eq_lt.2 hlt]
      refine ⟨div_pos hr hn, ?_⟩
      rw [div_lt_div_iff₀ hn two_pos]
      exact_mod_cast (by omega : r * 2 < 1 * n)
    · rw [Nat.compare_eq_eq.2 heq]
      show (r : ℚ) / n = 1 / 2
      rw [div_eq_div_iff hn.ne' two_ne_zero]
      exact_mod_cast (by omega : r * 2 = 1 * n)
    · rw [Nat.compare_eq_gt.2 hgt]
      refine ⟨?_, (div_lt_one hn).2 (by exact_mod_cast h)⟩
      rw [div_lt_div_iff₀ two_pos hn]
      exact_mod_cast (by omega : 1 * n < r * 2)

theorem targetExponent_sub_eq (m n : ℕ) (e f : ℤ) :
    Format.binary64.targetExponent (totalExponent m e - totalExponent n f) =
      max (m.log2 + e - (n.log2 + f) - 53) (-1074) := by
  simp only [Format.targetExponent, totalExponent, Format.mantissaBits, Format.minExponent]
  omega

theorem log_magnitude {m : ℕ} (hm : 0 < m) (e : ℤ) :
    2 ^ (m.log2 + e) ≤ (m : ℚ) * 2 ^ e ∧ (m : ℚ) * 2 ^ e < 2 ^ (m.log2 + e + 1) := by
  have hlog := log_mul_two_zpow (y := (m : ℚ)) hm (Int.floor_natCast m) e
  constructor
  · rw [← hlog]
    exact_mod_cast Int.zpow_log_le_self Nat.one_lt_two (magnitude_pos hm e)
  · rw [← hlog]
    exact_mod_cast Int.lt_zpow_succ_log_self Nat.one_lt_two ((m : ℚ) * 2 ^ e)

theorem log_quotient {m n : ℕ} (hm : 0 < m) (hn : 0 < n) (e f : ℤ) :
    2 ^ (m.log2 + e - (n.log2 + f) - 1) < (m : ℚ) * 2 ^ e / (n * 2 ^ f) ∧
      (m : ℚ) * 2 ^ e / (n * 2 ^ f) < 2 ^ (m.log2 + e - (n.log2 + f) + 1) := by
  obtain ⟨hmlow, hmhigh⟩ := log_magnitude hm e
  obtain ⟨hnlow, hnhigh⟩ := log_magnitude hn f
  constructor
  · rw [sub_sub, zpow_sub₀ two_ne_zero]
    exact div_lt_div₀' hmlow hnhigh (magnitude_pos hm e) (magnitude_pos hn f)
  · rw [sub_add_eq_add_sub, zpow_sub₀ two_ne_zero]
    exact div_lt_div₀ hmhigh hnlow (two_zpow_pos _).le (two_zpow_pos _)

/-- What a division with remainder of a shifted mantissa leaves out. -/
theorem residue_divCore {n : ℕ} (hn : 0 < n) (low : ℕ) :
    Residue (accuracyOfFraction (low % n) n) ((low : ℚ) / n - (low / n : ℕ)) := by
  have hn' : (n : ℚ) ≠ 0 := by exact_mod_cast hn.ne'
  have hrest : (low : ℚ) / n - (low / n : ℕ) = ((low % n : ℕ) : ℚ) / n := by
    have hdiv : (n : ℚ) * (low / n : ℕ) + (low % n : ℕ) = low := by
      exact_mod_cast Nat.div_add_mod low n
    rw [eq_div_iff hn', sub_mul, div_mul_cancel₀ _ hn', ← hdiv]
    ring
  rw [hrest]
  exact residue_accuracyOfFraction (Nat.mod_lt low hn)

theorem shiftLeft_div_value {m n k : ℕ} {e f T : ℤ} (hn : 0 < n) (h : T + k = e - f) :
    ((m <<< k : ℕ) : ℚ) / n * 2 ^ T = m * 2 ^ e / (n * 2 ^ f) := by
  have hn' : (n : ℚ) ≠ 0 := by exact_mod_cast hn.ne'
  have he : e = T + k + f := by omega
  rw [Nat.shiftLeft_eq, eq_div_iff (magnitude_pos hn f).ne', Nat.cast_mul, Nat.cast_pow,
    Nat.cast_ofNat, ← zpow_natCast, div_mul_eq_mul_div, div_mul_eq_mul_div, div_eq_iff hn', he,
    zpow_add₀ two_ne_zero, zpow_add₀ two_ne_zero]
  ring

/-- A mantissa at least as great as the divisor leaves a quotient that is not zero. -/
theorem div_pos_of_two_zpow_lt {low n : ℕ} {T : ℤ} (hn : 0 < n)
    (h : (2 : ℚ) ^ T < low / n * 2 ^ T) : 0 < low / n := by
  have hone : (1 : ℚ) < low / n := (lt_mul_iff_one_lt_left (two_zpow_pos T)).1 h
  rw [one_lt_div (by exact_mod_cast hn)] at hone
  exact Nat.div_pos (by exact_mod_cast hone.le) hn

/-- A quotient that is not too small has enough bits before it is rounded. -/
theorem Holds.div {u v : UnpackedFloat} {p q : ℚ} (hu : Holds u p) (hv : Holds v q)
    (above : 2 ^ (-1021 : ℤ) ≤ |p / q|) (range : |p / q| ≤ 2 ^ (1023 : ℤ)) :
    Holds (UnpackedFloat.div Format.binary64 u v) (nearest (p / q)) := by
  have hleast : (0 : ℚ) < 2 ^ (-1021 : ℤ) := two_zpow_pos _
  cases hu with
  | zero =>
    rw [zero_div, abs_zero] at above
    exact absurd above hleast.not_ge
  | @finite s m e pos shape bound =>
    cases hv with
    | zero =>
      rw [div_zero, abs_zero] at above
      exact absurd above hleast.not_ge
    | @finite t n f pos' shape' bound' =>
      have hx : (0 : ℚ) < m * 2 ^ e / (n * 2 ^ f) :=
        div_pos (magnitude_pos pos e) (magnitude_pos pos' f)
      rw [← signed_div] at above range ⊢
      rw [abs_signed _ hx.le] at above range
      obtain ⟨hlow, hhigh⟩ := log_quotient pos pos' e f
      have hnormal := (zpow_lt_zpow_iff_right₀ one_lt_two).1 (above.trans_lt hhigh)
      have hlog := (Int.zpow_le_iff_le_log Nat.one_lt_two hx).1 (by exact_mod_cast hlow.le)
      simp only [UnpackedFloat.div, divCore, targetExponent_sub_eq]
      generalize hT : min (e - f) (max (m.log2 + e - (n.log2 + f) - 53) (-1074)) = T
      -- the mantissa is shifted until the quotient has 53 bits or more
      obtain ⟨k, hk⟩ := Int.le.dest (hT ▸ min_le_left (e - f) _ : T ≤ e - f)
      have hTlog : T ≤ m.log2 + e - (n.log2 + f) - 53 := by omega
      have hshift : (e - f - T).toNat = k := by omega
      have hvalue := shiftLeft_div_value (m := m) pos' hk
      have hquotient : 0 < (m <<< k) / n := by
        refine div_pos_of_two_zpow_lt pos' (T := T) ?_
        rw [hvalue]
        exact (zpow_le_zpow_right₀ one_le_two (by omega)).trans_lt hlow
      rw [hshift]
      have hrounds := roundWithAccuracy_rounds (s / t) hquotient (residue_divCore pos' (m <<< k))
        (e := T) (by rw [hvalue, quantum]; omega)
      rw [hvalue] at hrounds
      exact hrounds.holds hx.le range

section Operations

variable {a b : Float} {p q : ℚ}

theorem Denotes.sub (ha : Denotes a p) (hb : Denotes b q) (range : |p - q| ≤ 2 ^ (1023 : ℤ)) :
    Denotes (a - b) (nearest (p - q)) := by
  have h := Holds.sub ha hb range
  rw [← h.unpack_pack] at h
  exact h

theorem Denotes.mul (ha : Denotes a p) (hb : Denotes b q) (range : |p * q| ≤ 2 ^ (1023 : ℤ)) :
    Denotes (a * b) (nearest (p * q)) := by
  have h := Holds.mul ha hb range
  rw [← h.unpack_pack] at h
  exact h

theorem Denotes.div (ha : Denotes a p) (hb : Denotes b q) (above : 2 ^ (-1021 : ℤ) ≤ |p / q|)
    (range : |p / q| ≤ 2 ^ (1023 : ℤ)) : Denotes (a / b) (nearest (p / q)) := by
  have h := Holds.div ha hb above range
  rw [← h.unpack_pack] at h
  exact h

theorem denotes_ofNat {n : ℕ} (word : n < 2 ^ 64) :
    Denotes (.ofModel (.ofNat n)) (nearest n) := by
  have habs : |((n : ℤ) : ℚ) * 2 ^ (0 : ℤ)| ≤ 2 ^ (1023 : ℤ) := by
    rw [zpow_zero, mul_one, Int.cast_natCast, abs_of_nonneg (Nat.cast_nonneg n)]
    calc (n : ℚ) ≤ 2 ^ (64 : ℤ) := by exact_mod_cast word.le
      _ ≤ 2 ^ (1023 : ℤ) := zpow_le_zpow_right₀ one_le_two (by norm_num)
  have h := normalize_holds habs .positive
  rw [← h.unpack_pack, zpow_zero, mul_one, Int.cast_natCast] at h
  exact h

theorem denotes_uint64 (n : UInt64) : Denotes n.toFloat (nearest n.toNat) :=
  denotes_ofNat n.toNat_lt

/-- A word of 32 bits is exact. -/
theorem denotes_uint32 (n : UInt32) : Denotes n.toFloat n.toNat := by
  have h : Denotes n.toFloat (nearest n.toNat) :=
    denotes_ofNat (n.toNat_lt.trans (by norm_num))
  have hself := nearestMagnitude_eq_self (m := n.toNat) (e := 0)
    (n.toNat_lt.trans (by norm_num)) (by norm_num)
  rw [zpow_zero, mul_one] at hself
  rwa [nearest_of_nonneg (Nat.cast_nonneg _), hself] at h

end Operations

end ListMode.Binary64
