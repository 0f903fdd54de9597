import ListMode.Proofs.Binary64.Rounding

/-!
# Floats as numbers

What a float stands for, when it is a number at all (`Denotes`).  A number survives
packing (`Holds.unpack_pack`), every float is a number, infinite or no number
(`holds_or`), and numbers are compared as what they stand for (`Denotes.le_iff`).
-/

namespace ListMode.Binary64

open Float.Model Float.Model.UnpackedFloat

/-! ## Numbers -/

/-- A magnitude with a sign. -/
def signed : Sign → ℚ → ℚ
  | .positive, x => x
  | .negative, x => -x

/-- The unpacked float is a number as binary64 has it, and it is this one. -/
inductive Holds : UnpackedFloat → ℚ → Prop where
  | zero {s} : Holds (.zero s) 0
  | finite {s m e pos} (shape : Canonical m e) (bound : e ≤ 971) :
      Holds (.finite s m e pos) (signed s (m * 2 ^ e))

/-- The float is a number, and it is this one. -/
def Denotes (a : Float) (p : ℚ) : Prop := Holds a.toModel.unpack p

/-! ## Packing -/

theorem toNat_implicit_append (mantissa : BitVec 52) :
    (1#1 ++ mantissa).toNat = 2 ^ 52 + mantissa.toNat := by
  rw [BitVec.toNat_append, ← Nat.shiftLeft_add_eq_or_of_lt mantissa.isLt]
  rfl

theorem unpack_normal (s : Sign) {exponent : BitVec 11} (mantissa : BitVec 52)
    (hinf : exponent ≠ -1#11) (hzero : exponent ≠ 0#11) :
    UnpackedFloat.unpack Format.binary64 (packComponents Format.binary64 s exponent mantissa) =
      .finite s (2 ^ 52 + mantissa.toNat) (exponent.toNat - 1075) (by omega) := by
  simp only [UnpackedFloat.unpack, unpackExponent_packComponents, unpackMantissa_packComponents,
    unpackSign_packComponents, Sign.ofBitVec_toBitVec]
  rw [if_neg hinf, if_neg hzero]
  congr 1
  exact toNat_implicit_append mantissa

theorem unpack_subnormal (s : Sign) {mantissa : BitVec 52} (hpos : 0 < mantissa.toNat) :
    UnpackedFloat.unpack Format.binary64 (packComponents Format.binary64 s 0#11 mantissa) =
      .finite s mantissa.toNat (-1074) hpos := by
  have hne : mantissa ≠ 0#52 := by
    rintro rfl
    simp at hpos
  simp only [UnpackedFloat.unpack, unpackExponent_packComponents, unpackMantissa_packComponents,
    unpackSign_packComponents, Sign.ofBitVec_toBitVec]
  rw [if_neg (by decide), if_pos trivial, dif_neg hne]
  rfl

section Packing

variable {s : Sign} {m : ℕ} {e : ℤ} {pos : 0 < m}

theorem pack_finite (he : -1074 ≤ e) (bound : e ≤ 971) :
    UnpackedFloat.pack Format.binary64 (.finite s m e pos) =
      if m.log2 = 52 then
        packComponents Format.binary64 s (BitVec.ofNat 11 (e + 1075).toNat) (BitVec.ofNat 52 m)
      else packComponents Format.binary64 s 0#11 (BitVec.ofNat 52 m) := by
  have hbias : (e + (Format.binary64.exponentBias : ℤ) + (52 : ℕ)).toNat = (e + 1075).toNat := by
    rw [add_assoc]
    rfl
  have hrange : ¬ 2 ^ 11 ≤ (e + 1075).toNat + 1 := by omega
  have hbits : m.log2 + 1 = Format.binary64.mantissaBits ↔ m.log2 = 52 := by
    simp only [Format.mantissaBits]
    omega
  simp only [UnpackedFloat.pack]
  rw [hbias, if_neg hrange]
  simp only [hbits]

theorem unpack_pack_normal (hm : m < 2 ^ 53) (normal : 2 ^ 52 ≤ m) (he : -1074 ≤ e)
    (bound : e ≤ 971) :
    (Float.Model.pack (.finite s m e pos)).unpack = .finite s m e pos := by
  have hlog : m.log2 = 52 := (Nat.log2_eq_iff pos.ne').2 ⟨normal, hm⟩
  have hexp : (BitVec.ofNat 11 (e + 1075).toNat).toNat = (e + 1075).toNat := by
    rw [BitVec.toNat_ofNat, Nat.mod_eq_of_lt (by omega)]
  have hman : (BitVec.ofNat 52 m).toNat = m - 2 ^ 52 := by
    rw [BitVec.toNat_ofNat]
    omega
  simp only [Float.Model.pack, Float.Model.unpack]
  rw [pack_finite he bound, if_pos hlog]
  refine (unpack_normal s _ ?_ ?_).trans ?_
  · intro h
    have hlast : (e + 1075).toNat = 2047 := hexp ▸ congrArg BitVec.toNat h
    omega
  · intro h
    have hfirst : (e + 1075).toNat = 0 := hexp ▸ congrArg BitVec.toNat h
    omega
  · have hmantissa : 2 ^ 52 + (m - 2 ^ 52) = m := by omega
    have hexponent : ((e + 1075).toNat : ℤ) - 1075 = e := by omega
    simp only [hexp, hman, hmantissa, hexponent]

theorem unpack_pack_subnormal (subnormal : m < 2 ^ 52) :
    (Float.Model.pack (.finite s m (-1074) pos)).unpack = .finite s m (-1074) pos := by
  have hlog : m.log2 ≠ 52 := ((Nat.log2_lt pos.ne').2 subnormal).ne
  have hman : (BitVec.ofNat 52 m).toNat = m := by
    rw [BitVec.toNat_ofNat, Nat.mod_eq_of_lt subnormal]
  simp only [Float.Model.pack, Float.Model.unpack]
  rw [pack_finite le_rfl (by norm_num), if_neg hlog]
  refine (unpack_subnormal s (by rwa [hman])).trans ?_
  simp only [hman]

end Packing

/-- A number is unpacked as it was packed. -/
theorem Holds.unpack_pack {u : UnpackedFloat} {p : ℚ} (h : Holds u p) :
    (Float.Model.pack u).unpack = u := by
  cases h with
  | @zero s => cases s <;> rfl
  | @finite s m e pos shape bound =>
    by_cases normal : 2 ^ 52 ≤ m
    · exact unpack_pack_normal shape.mantissa normal shape.exponent bound
    · obtain rfl := shape.full.resolve_left normal
      exact unpack_pack_subnormal (Nat.lt_of_not_le normal)

/-- A float is a number, or infinite, or no number. -/
theorem holds_or (a : Float.Model) :
    (∃ p, Holds a.unpack p) ∨ (∃ s, a.unpack = .infinity s) ∨ a.unpack = .notANumber := by
  have hbias : ((Format.binary64.exponentBias : ℤ) + (52 : ℕ)) = 1075 := rfl
  obtain ⟨mantissa, hmantissa⟩ : ∃ mantissa : BitVec 52,
      mantissa = @unpackMantissa Format.binary64 a.toBits.toBitVec := ⟨_, rfl⟩
  obtain ⟨exponent, hexponent⟩ : ∃ exponent : BitVec 11,
      exponent = @unpackExponent Format.binary64 a.toBits.toBitVec := ⟨_, rfl⟩
  have hman : mantissa.toNat < 2 ^ 52 := mantissa.isLt
  simp only [Float.Model.unpack, UnpackedFloat.unpack, ← hmantissa, ← hexponent, hbias]
  split
  · split
    · exact .inr (.inl ⟨_, rfl⟩)
    · exact .inr (.inr rfl)
  · next hinf =>
    have hlast : exponent.toNat ≠ 2047 := fun h => hinf (BitVec.eq_of_toNat_eq h)
    have hexp : exponent.toNat < 2 ^ 11 := exponent.isLt
    split
    · next hzero =>
      have hleast : exponent.toNat = 0 := congrArg BitVec.toNat hzero
      split
      · exact .inl ⟨_, .zero⟩
      · refine .inl ⟨_, .finite ⟨?_, ?_, .inr ?_⟩ ?_⟩
        · omega
        · omega
        · omega
        · omega
    · next hzero =>
      have hfirst : exponent.toNat ≠ 0 := fun h => hzero (BitVec.eq_of_toNat_eq h)
      have himplicit := toNat_implicit_append mantissa
      refine .inl ⟨_, .finite ⟨?_, ?_, .inl ?_⟩ ?_⟩
      · exact himplicit.trans_lt (by omega)
      · omega
      · exact (Nat.le_add_right _ _).trans himplicit.ge
      · omega

/-! ## Order -/

section Order

variable {m n : ℕ} {e f : ℤ}

theorem Canonical.lt_of_exponent_lt (hm : Canonical m e) (hn : Canonical n f) (h : e < f) :
    (m : ℚ) * 2 ^ e < n * 2 ^ f := by
  have hfull : 2 ^ 52 ≤ n := hn.full.resolve_right (by have := hm.exponent; omega)
  calc (m : ℚ) * 2 ^ e < 2 ^ 53 * 2 ^ e :=
        mul_lt_mul_of_pos_right (by exact_mod_cast hm.mantissa) (two_zpow_pos e)
    _ = 2 ^ 52 * 2 ^ (e + 1) := by rw [zpow_add_one₀ two_ne_zero]; ring
    _ ≤ 2 ^ 52 * 2 ^ f :=
        mul_le_mul_of_nonneg_left (zpow_le_zpow_right₀ one_le_two h) (by positivity)
    _ ≤ n * 2 ^ f := mul_le_mul_of_nonneg_right (by exact_mod_cast hfull) (two_zpow_pos f).le

/-- Magnitudes are compared by their exponents first. -/
theorem Canonical.isLE_iff (hm : Canonical m e) (hn : Canonical n f) :
    ((compare e f).then (compare m n)).isLE = true ↔ (m : ℚ) * 2 ^ e ≤ n * 2 ^ f := by
  obtain hlt | rfl | hgt := lt_trichotomy e f
  · have hcmp : compare e f = .lt := Int.compare_eq_lt.2 hlt
    simpa [hcmp] using (hm.lt_of_exponent_lt hn hlt).le
  · simp [Nat.isLE_compare, mul_le_mul_iff_left₀ (two_zpow_pos e)]
  · have hcmp : compare e f = .gt := Int.compare_eq_gt.2 hgt
    simpa [hcmp] using hn.lt_of_exponent_lt hm hgt

theorem Canonical.isLE_swap_iff (hm : Canonical m e) (hn : Canonical n f) :
    ((compare e f).then (compare m n)).swap.isLE = true ↔ (n : ℚ) * 2 ^ f ≤ m * 2 ^ e := by
  rw [← hn.isLE_iff hm, Ordering.swap_then, Int.compare_swap, Nat.compare_swap]

end Order

/-- Floats that are numbers are compared as what they stand for. -/
theorem Holds.le_iff {u v : UnpackedFloat} {p q : ℚ} (hu : Holds u p) (hv : Holds v q) :
    u.le v = true ↔ p ≤ q := by
  cases hu with
  | zero =>
    cases hv with
    | zero => simp [UnpackedFloat.le, UnpackedFloat.compare]
    | @finite s m e pos shape bound =>
      have hpos : (0 : ℚ) < m * 2 ^ e := magnitude_pos pos e
      cases s with
      | positive => simp [UnpackedFloat.le, UnpackedFloat.compare, signed, hpos.le]
      | negative => simp [UnpackedFloat.le, UnpackedFloat.compare, signed, hpos]
  | @finite s m e pos shape bound =>
    have hpos : (0 : ℚ) < m * 2 ^ e := magnitude_pos pos e
    cases hv with
    | zero =>
      cases s with
      | positive => simp [UnpackedFloat.le, UnpackedFloat.compare, signed, hpos]
      | negative => simp [UnpackedFloat.le, UnpackedFloat.compare, signed, hpos.le]
    | @finite t n f pos' shape' bound' =>
      have hpos' : (0 : ℚ) < n * 2 ^ f := magnitude_pos pos' f
      cases s with
      | positive =>
        cases t with
        | positive =>
          simpa [UnpackedFloat.le, UnpackedFloat.compare, signed] using
            shape.isLE_iff shape'
        | negative =>
          have hlt : -((n : ℚ) * 2 ^ f) < m * 2 ^ e := by linarith
          simpa [UnpackedFloat.le, UnpackedFloat.compare, signed] using hlt
      | negative =>
        cases t with
        | positive =>
          have hle : -((m : ℚ) * 2 ^ e) ≤ n * 2 ^ f := by linarith
          simpa [UnpackedFloat.le, UnpackedFloat.compare, signed] using hle
        | negative =>
          simpa [UnpackedFloat.le, UnpackedFloat.compare, signed] using
            shape.isLE_swap_iff shape'

theorem float_le_iff {a b : Float} : a ≤ b ↔ a.toModel.unpack.le b.toModel.unpack = true := by
  show decide (a.toModel ≤ b.toModel) = true ↔ _
  exact decide_eq_true_iff

/-- Two numbers are compared the other way round as they are compared. -/
theorem Holds.compare_swap {u v : UnpackedFloat} {p q : ℚ} (hu : Holds u p) (hv : Holds v q) :
    ∃ o, u.compare v = some o ∧ v.compare u = some o.swap := by
  cases hu with
  | zero =>
    cases hv with
    | zero => exact ⟨_, rfl, rfl⟩
    | @finite s => cases s <;> exact ⟨_, rfl, rfl⟩
  | @finite s m e =>
    cases hv with
    | zero => cases s <;> exact ⟨_, rfl, rfl⟩
    | @finite t n f =>
      have swapped : (compare f e).then (compare n m) = ((compare e f).then (compare m n)).swap := by
        rw [Ordering.swap_then, Int.compare_swap, Nat.compare_swap]
      cases s with
      | positive =>
        cases t with
        | positive => exact ⟨_, rfl, congrArg some swapped⟩
        | negative => exact ⟨_, rfl, rfl⟩
      | negative =>
        cases t with
        | positive => exact ⟨_, rfl, rfl⟩
        | negative => exact ⟨_, rfl, congrArg (fun o : Ordering => some o.swap) swapped⟩

theorem Holds.lt_iff {u v : UnpackedFloat} {p q : ℚ} (hu : Holds u p) (hv : Holds v q) :
    u.lt v = true ↔ p < q := by
  obtain ⟨o, huv, hvu⟩ := hu.compare_swap hv
  rw [← not_le, ← hv.le_iff hu, UnpackedFloat.lt, UnpackedFloat.le, huv, hvu]
  cases o with
  | lt => exact iff_of_true rfl Bool.false_ne_true
  | eq => exact iff_of_false Bool.false_ne_true (not_not_intro rfl)
  | gt => exact iff_of_false Bool.false_ne_true (not_not_intro rfl)

theorem float_lt_iff {a b : Float} : a < b ↔ a.toModel.unpack.lt b.toModel.unpack = true := by
  show decide (a.toModel < b.toModel) = true ↔ _
  exact decide_eq_true_iff

theorem float_le_of_lt {a b : Float} (h : a < b) : a ≤ b := by
  have hcmp : a.toModel.unpack.compare b.toModel.unpack = some .lt :=
    beq_iff_eq.1 (float_lt_iff.1 h)
  rw [float_le_iff, UnpackedFloat.le, hcmp]
  rfl

section Comparing

variable {a b : Float} {p q : ℚ}

theorem Denotes.le_iff (ha : Denotes a p) (hb : Denotes b q) : a ≤ b ↔ p ≤ q :=
  float_le_iff.trans (Holds.le_iff ha hb)

theorem Denotes.lt_iff (ha : Denotes a p) (hb : Denotes b q) : a < b ↔ p < q :=
  float_lt_iff.trans (Holds.lt_iff ha hb)

/-- What bounds a number bounds a smaller one, also when the bound is infinite. -/
theorem Denotes.le_of_le (ha : Denotes a p) (hb : Denotes b q) (h : p ≤ q) {c : Float}
    (hc : b ≤ c) : a ≤ c := by
  obtain ⟨r, hr⟩ | ⟨s, hs⟩ | hnan := holds_or c.toModel
  · exact (ha.le_iff hr).2 (h.trans ((hb.le_iff hr).1 hc))
  · rw [float_le_iff, hs] at hc ⊢
    unfold Denotes at ha hb
    generalize a.toModel.unpack = u at ha
    generalize b.toModel.unpack = v at hb hc
    cases s with
    | positive => cases ha <;> rfl
    | negative => cases hb <;> exact absurd hc (by simp [UnpackedFloat.le, UnpackedFloat.compare])
  · rw [float_le_iff, hnan] at hc
    unfold Denotes at hb
    generalize b.toModel.unpack = v at hb hc
    cases hb <;> exact absurd hc (by simp [UnpackedFloat.le, UnpackedFloat.compare])

end Comparing

end ListMode.Binary64
