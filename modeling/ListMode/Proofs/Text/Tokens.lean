import ListMode.Text.Blank
import ListMode.Text.Integer
import Mathlib.Algebra.Group.Nat.Defs

/-!
# Tokens and numbers, written and read

A token is a piece of text without a blank in it.  Tokens that are written with
a blank behind each are the tokens of the text (`Text.tokens_append`); graphic
ASCII characters are no blanks (`Text.IsGraphic.not_blank`).  The decimal digits of a
number are a token, and read as the number wherever it is in range
(`Text.natural?_decimal`).
-/

namespace ListMode.Text

/-! ## Tokens -/

/-- The characters are a token. -/
structure IsToken (cs : List Char) : Prop where
  /-- There is something to read. -/
  ne_nil : cs ≠ []
  /-- Nothing separates the characters. -/
  not_blank : ∀ c ∈ cs, isBlank c = false

theorem isToken_singleton {c : Char} (h : isBlank c = false) : IsToken [c] where
  ne_nil := List.cons_ne_nil c []
  not_blank d hd := by rwa [List.mem_singleton.1 hd]

theorem closeToken_append (token : List Char) (done : List (List Char)) :
    closeToken token done = closeToken token [] ++ done := by
  rw [closeToken, closeToken]
  split <;> rfl

/-- The tokens read before stand in front. -/
theorem tokensFrom_done (cs : List Char) : ∀ (token : List Char) (done : List (List Char)),
    tokensFrom token done cs = done.reverse ++ tokensFrom token [] cs := by
  induction cs with
  | nil =>
      intro token done
      rw [tokensFrom, tokensFrom, closeToken_append, List.reverse_append]
  | cons c cs ih =>
      intro token done
      rw [tokensFrom, tokensFrom]
      split
      · rw [ih [] (closeToken token done), ih [] (closeToken token []), closeToken_append,
          List.reverse_append, List.append_assoc]
      · exact ih (c :: token) done

/-- Characters that are no blanks go to the token in hand. -/
theorem tokensFrom_append {cs : List Char} (h : ∀ c ∈ cs, isBlank c = false) (rest : List Char) :
    ∀ (token : List Char) (done : List (List Char)),
      tokensFrom token done (cs ++ rest) = tokensFrom (cs.reverse ++ token) done rest := by
  induction cs with
  | nil => exact fun _ _ => rfl
  | cons c cs ih =>
      intro token done
      rw [List.forall_mem_cons] at h
      rw [List.cons_append, tokensFrom, h.1, if_neg Bool.false_ne_true, ih h.2,
        List.reverse_cons, List.append_assoc, List.singleton_append]

/-- A token with a blank behind it is the first token of the text. -/
theorem tokens_append {cs : List Char} (h : IsToken cs) {blank : Char}
    (hblank : isBlank blank = true) (rest : List Char) :
    tokens (cs ++ [blank] ++ rest) = cs :: tokens rest := by
  have hclose : closeToken (cs.reverse ++ []) [] = [cs] := by
    rw [closeToken, if_neg (by simpa using h.ne_nil), List.append_nil, List.reverse_reverse]
  rw [tokens, List.append_assoc, tokensFrom_append h.not_blank, List.singleton_append, tokensFrom,
    if_pos hblank, hclose, tokensFrom_done]
  rfl

/-! ## Graphic characters -/

/-- The character is an ASCII character, and neither a blank nor a control. -/
def IsGraphic (c : Char) : Prop := 0x20 < c.toNat ∧ c.toNat < 0x7F

instance : DecidablePred IsGraphic := fun _ => inferInstanceAs (Decidable (_ ∧ _))

theorem isGraphic_of_isDigit {c : Char} (h : c.isDigit = true) : IsGraphic c := by
  obtain ⟨hlow, hhigh⟩ := Char.isDigit_iff_toNat.1 h
  have hlow : 48 ≤ c.toNat := hlow
  have hhigh : c.toNat ≤ 57 := hhigh
  exact ⟨by omega, by omega⟩

theorem IsGraphic.not_blank {c : Char} (h : IsGraphic c) : isBlank c = false := by
  obtain ⟨hlow, hhigh⟩ := h
  simp only [isBlank, Bool.or_eq_false_iff, Bool.and_eq_false_iff, beq_eq_false_iff_ne,
    decide_eq_false_iff_not]
  omega

/-! ## Numbers -/

theorem digit?_of_isDigit {c : Char} (h : c.isDigit = true) :
    digit? c = some (c.toNat - '0'.toNat) := by
  have hbounds : '0' ≤ c ∧ c ≤ '9' := Char.isDigit_iff_toNat.1 h
  rw [digit?, if_pos hbounds]

/-- Digits say the number that they are the digits of. -/
theorem digitsValue?_eq {cs : List Char} (h : ∀ c ∈ cs, c.isDigit = true) : ∀ n,
    digitsValue? n cs = some (Nat.ofDigitChars 10 cs n) := by
  induction cs with
  | nil => exact fun _ => rfl
  | cons c cs ih =>
      intro n
      rw [List.forall_mem_cons] at h
      rw [digitsValue?, digit?_of_isDigit h.1, Nat.ofDigitChars_cons, Nat.mul_comm 10 n]
      exact ih h.2 _

theorem isDigit_of_mem_decimal {n : Nat} {c : Char} (h : c ∈ decimal n) : c.isDigit = true :=
  Nat.isDigit_of_mem_toDigits (by decide) (by decide) h

theorem isGraphic_of_mem_decimal {n : Nat} {c : Char} (h : c ∈ decimal n) : IsGraphic c :=
  isGraphic_of_isDigit (isDigit_of_mem_decimal h)

theorem isToken_decimal (n : Nat) : IsToken (decimal n) where
  ne_nil := Nat.toDigits_ne_nil
  not_blank _ hc := (isGraphic_of_mem_decimal hc).not_blank

/-- No number is written with a sign. -/
theorem decimal_ne_plus {n : Nat} {cs : List Char} : decimal n ≠ '+' :: cs := by
  intro h
  have hdigit : '+'.isDigit = true := isDigit_of_mem_decimal (n := n) (by simp [h])
  revert hdigit
  decide

/-- Without a sign, a token says the number of its digits, when it is in range. -/
theorem natural?_of_unsigned {bits : Nat} {token : List Char} (hne : token ≠ [])
    (hsign : ∀ cs, token ≠ '+' :: cs) :
    natural? bits token = (digitsValue? 0 token).filter (· < 2 ^ bits) := by
  have hempty : token.isEmpty = false := List.isEmpty_eq_false_iff.2 hne
  have hread := digitsBelow?_eq (1 <<< bits) 0 token
  rw [Nat.min_zero, Nat.one_shiftLeft] at hread
  unfold natural?
  split
  · exact absurd rfl (hsign _)
  · simp only [hempty, Bool.false_eq_true, if_false, Nat.one_shiftLeft, hread]

theorem digitsBelow?_lt {limit m : Nat} {cs : List Char} : ∀ {n},
    digitsBelow? limit n cs = some m → m < limit := by
  induction cs with
  | nil =>
      intro n h
      rw [digitsBelow?] at h
      split at h
      · next hlt => exact Option.some.inj h ▸ hlt
      · cases h
  | cons c cs ih =>
      intro n h
      obtain ⟨d, -, h⟩ := Option.bind_eq_some_iff.1 h
      exact ih h

/-- A number that is read is in range. -/
theorem natural?_lt {bits n : Nat} {token : List Char} (h : natural? bits token = some n) :
    n < 2 ^ bits := by
  rw [← Nat.one_shiftLeft]
  unfold natural? at h
  exact digitsBelow?_lt (Option.ite_none_left_eq_some.1 h).2

/-- A number that is written is read back when it is in range. -/
theorem natural?_decimal {bits n : Nat} (h : n < 2 ^ bits) :
    natural? bits (decimal n) = some n := by
  have hvalue : digitsValue? 0 (decimal n) = some n :=
    (digitsValue?_eq (fun _ => isDigit_of_mem_decimal) 0).trans
      (congrArg some Nat.ofDigitChars_ten_toDigits)
  rw [natural?_of_unsigned (isToken_decimal n).ne_nil (fun _ => decimal_ne_plus), hvalue,
    Option.filter_some, decide_eq_true h, if_pos rfl]

/-- No other number than zero is written as a lone zero. -/
theorem decimal_eq_zero_iff {n : Nat} : decimal n = ['0'] ↔ n = 0 := by
  constructor
  · intro h
    have hvalue : Nat.ofDigitChars 10 (decimal n) 0 = n := Nat.ofDigitChars_ten_toDigits
    rw [h] at hvalue
    exact hvalue.symm
  · rintro rfl
    rfl

end ListMode.Text
