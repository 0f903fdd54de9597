import ListMode.Decimal.Fixed
import ListMode.Decimal.Read
import ListMode.Proofs.Text.Lines
import Mathlib.Data.List.TakeDrop
import Mathlib.Data.List.TakeWhile

/-!
# Numbers without decimals, written and read

A number that is written without decimals is an optional sign with digits behind it, or
with one of the words for infinity and for no number.  All of these are graphic
characters (`Decimal.isGraphic_fixed`) and are read as some number again
(`Decimal.isSome_read?_fixed`).
-/

namespace ListMode.Decimal

open Text (IsGraphic isGraphic_of_isDigit digit?_of_isDigit)

/-! ## Digits -/

theorem isSome_pushAll? {cs : List Char} (h : ∀ c ∈ cs, c.isDigit = true) (s : Significand) :
    (s.pushAll? cs).isSome := by
  induction cs generalizing s with
  | nil => rfl
  | cons c cs ih =>
      rw [List.forall_mem_cons] at h
      rw [Significand.pushAll?, digit?_of_isDigit h.1]
      exact ih h.2 _

theorem spanDigits_of_isDigit {cs : List Char} (h : ∀ c ∈ cs, c.isDigit = true) :
    spanDigits cs = (cs, []) := by
  rw [spanDigits, List.span_eq_takeWhile_dropWhile, List.takeWhile_eq_self_iff.2 h,
    List.dropWhile_eq_nil_iff.2 h]

/-- Digits alone say some number. -/
theorem isSome_unsignedDigits? {cs : List Char} (hne : cs ≠ []) (h : ∀ c ∈ cs, c.isDigit = true) :
    (unsignedDigits? cs).isSome := by
  have filled : cs.isEmpty = false := List.isEmpty_eq_false_iff.2 hne
  obtain ⟨significand, hpush⟩ := Option.isSome_iff_exists.1 (isSome_pushAll? h {})
  simp [unsignedDigits?, spanDigits_of_isDigit h, filled, hpush, exponent?]

/-- A word for a number says one too. -/
theorem isSome_unsigned? {cs : List Char} (h : (unsignedDigits? cs).isSome) :
    (unsigned? cs).isSome := by
  rw [unsigned?]
  split
  · rfl
  · rfl
  · rfl
  · exact h

theorem isSome_read?_signed {cs : List Char} (unsigned : ∀ c ∈ cs, c ≠ '-' ∧ c ≠ '+')
    (h : (unsigned? cs).isSome) (negative : Bool) : (read? (signed negative cs)).isSome := by
  cases negative with
  | true =>
      show ((unsigned? cs).map fun x => -x).isSome = true
      rwa [Option.isSome_map]
  | false =>
      show (read? cs).isSome = true
      unfold read?
      split
      · exact absurd rfl (unsigned _ List.mem_cons_self).1
      · exact absurd rfl (unsigned _ List.mem_cons_self).2
      · exact h

/-! ## Numbers without decimals -/

/-- What is written of a number without decimals, but for its sign: a word or digits. -/
theorem fixed_zero (x : Float) : ∃ negative cs, fixed 0 x = signed negative cs ∧ cs ≠ [] ∧
    (∀ c ∈ cs, IsGraphic c ∧ c ≠ '-' ∧ c ≠ '+') ∧ (unsigned? cs).isSome := by
  rw [fixed]
  cases parts x with
  | nan =>
      refine ⟨false, ['N', 'a', 'N'], rfl, List.cons_ne_nil _ _, ?_, rfl⟩
      rw [List.forall_mem_cons, List.forall_mem_cons, List.forall_mem_singleton]
      decide
  | infinite negative =>
      refine ⟨negative, ['i', 'n', 'f'], rfl, List.cons_ne_nil _ _, ?_, rfl⟩
      rw [List.forall_mem_cons, List.forall_mem_cons, List.forall_mem_singleton]
      decide
  | finite negative mantissa exponent =>
      let n := roundDiv (numerator mantissa exponent 0) (denominator exponent 0)
      have digits : ∀ c ∈ Nat.toDigits 10 n, c.isDigit = true := fun c hc =>
        Nat.isDigit_of_mem_toDigits (by decide) (by decide) hc
      have sign : ∀ c : Char, c.isDigit = true → c ≠ '-' ∧ c ≠ '+' := by
        intro c hc
        constructor
        · rintro rfl
          exact absurd hc (by decide)
        · rintro rfl
          exact absurd hc (by decide)
      refine ⟨negative, Nat.toDigits 10 n, rfl, Nat.toDigits_ne_nil, fun c hc => ?_, ?_⟩
      · exact ⟨isGraphic_of_isDigit (digits c hc), sign c (digits c hc)⟩
      · exact isSome_unsigned? (isSome_unsignedDigits? Nat.toDigits_ne_nil digits)

theorem isGraphic_fixed {x : Float} {c : Char} (h : c ∈ fixed 0 x) : IsGraphic c := by
  obtain ⟨negative, cs, hfixed, -, graphic, -⟩ := fixed_zero x
  rw [hfixed] at h
  cases negative with
  | false => exact (graphic c h).1
  | true =>
      rcases List.mem_cons.1 h with rfl | h
      · decide
      · exact (graphic c h).1

theorem fixed_ne_nil (x : Float) : fixed 0 x ≠ [] := by
  obtain ⟨negative, cs, hfixed, hne, -⟩ := fixed_zero x
  rw [hfixed]
  cases negative with
  | false => exact hne
  | true => exact List.cons_ne_nil _ _

/-- What is written of a number is read as a number. -/
theorem isSome_read?_fixed (x : Float) : (read? (fixed 0 x)).isSome := by
  obtain ⟨negative, cs, hfixed, -, graphic, read⟩ := fixed_zero x
  rw [hfixed]
  exact isSome_read?_signed (fun c hc => (graphic c hc).2) read negative

end ListMode.Decimal
