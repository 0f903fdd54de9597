import ListMode.Proofs.Text.Lines
import Mathlib.Data.List.Basic
import Mathlib.Data.List.TakeWhile

/-!
# What the lines of a text say

A reader that trims its lines does not see whether a line was ended, nor how.  The text of a
line without the blanks at its ends is its *token* (`token?`), a carriage return in front of
a line feed is such a blank (`token?_closeLine`), and what is missing behind the last line
feed is a line without a token.  So the lines of a text have the tokens of the pieces between
its line feeds, as far as these are not empty (`token?_lines`).

That a carriage return can be taken off before or after the bytes are read as a text is
a fact of UTF-8, where an ASCII byte is all of its character
(`toNat_eq_of_mem_utf8EncodeChar`).
-/

namespace ListMode.Text

/-! ## ASCII bytes in a text -/

/-- The bytes of a character that takes more than one are no ASCII characters. -/
theorem le_of_mem_utf8EncodeChar {c : Char} (hc : 0x80 ≤ c.toNat) {b : UInt8}
    (hb : b ∈ String.utf8EncodeChar c) : 0x80 ≤ b.toNat := by
  have hvalid : c.toNat < 0xD800 ∨ 0xDFFF < c.toNat ∧ c.toNat < 0x110000 := c.valid
  have value : c.val.toNat = c.toNat := rfl
  have byte : ∀ n : Nat, 0x80 ≤ n → n < 0x100 → b = UInt8.ofNat n → 0x80 ≤ b.toNat := by
    rintro n hlow hhigh rfl
    rwa [toNat_ofNat hhigh]
  simp only [String.utf8EncodeChar, value] at hb
  generalize c.toNat = v at *
  rw [if_neg (by omega)] at hb
  split at hb
  · simp only [List.mem_cons, List.not_mem_nil, or_false] at hb
    rcases hb with h | h
    · exact byte _ (by omega) (by omega) h
    · exact byte _ (by omega) (by omega) h
  · split at hb
    · simp only [List.mem_cons, List.not_mem_nil, or_false] at hb
      rcases hb with h | h | h
      · exact byte _ (by omega) (by omega) h
      · exact byte _ (by omega) (by omega) h
      · exact byte _ (by omega) (by omega) h
    · simp only [List.mem_cons, List.not_mem_nil, or_false] at hb
      rcases hb with h | h | h | h
      · exact byte _ (by omega) (by omega) h
      · exact byte _ (by omega) (by omega) h
      · exact byte _ (by omega) (by omega) h
      · exact byte _ (by omega) (by omega) h

/-- An ASCII byte is all of the character that it is in. -/
theorem toNat_eq_of_mem_utf8EncodeChar {c : Char} {b : UInt8} (hb : b ∈ String.utf8EncodeChar c)
    (ascii : b.toNat < 0x80) : c.toNat = b.toNat := by
  have small : c.toNat < 0x80 := Nat.lt_of_not_le fun hc =>
    Nat.not_le.2 ascii (le_of_mem_utf8EncodeChar hc hb)
  have value : c.val.toNat = c.toNat := rfl
  rw [String.utf8EncodeChar, value, if_pos (by omega), List.mem_singleton] at hb
  rw [hb, toNat_ofNat (by omega)]

/-! ## Carriage returns -/

theorem utf8_return : utf8 ['\r'] = [0x0D] := by decide

theorem eq_utf8_of_ofUtf8? {bytes : List UInt8} {cs : List Char} (h : ofUtf8? bytes = some cs) :
    bytes = utf8 cs := by
  obtain ⟨s, hs, rfl⟩ := Option.map_eq_some_iff.1 h
  rw [String.fromUTF8?] at hs
  split at hs
  · next valid =>
      obtain rfl := Option.some.inj hs
      have stored : (String.fromUTF8 ⟨bytes.toArray⟩ valid).toByteArray.data.toList = bytes := rfl
      rw [← toList_toUTF8, String.ofList_toList, String.toUTF8_eq_toByteArray, stored]
  · cases hs

/-- Bytes of a text that end in a carriage return are those of a text in front of one. -/
theorem eq_concat_of_utf8_eq_concat {line : List UInt8} {text : List Char}
    (h : line ++ [0x0D] = utf8 text) : ∃ front, text = front ++ ['\r'] ∧ line = utf8 front := by
  obtain rfl | ⟨front, c, rfl⟩ := text.eq_nil_or_concat
  · exact absurd h (by simp [utf8])
  rw [List.concat_eq_append, utf8_append] at h
  have hchar : utf8 [c] = String.utf8EncodeChar c := List.append_nil _
  have hne : utf8 [c] ≠ [] := by
    rw [hchar, ← List.length_pos_iff, String.length_utf8EncodeChar]
    exact c.utf8Size_pos
  have hlast : (utf8 [c]).getLast? = some 0x0D := by
    rw [← List.getLast?_append_of_ne_nil (utf8 front) hne, ← h, List.getLast?_concat]
  have hmem : (0x0D : UInt8) ∈ String.utf8EncodeChar c := hchar ▸ List.mem_of_getLast? hlast
  obtain rfl : c = '\r' := Char.toNat_inj.1 (toNat_eq_of_mem_utf8EncodeChar hmem (by decide))
  rw [utf8_return] at h
  exact ⟨front, List.concat_eq_append, (List.append_inj' h rfl).1⟩

/-- A carriage return behind bytes is one behind the text that they hold. -/
theorem ofUtf8?_concat_return (line : List UInt8) :
    ofUtf8? (line ++ [0x0D]) = (ofUtf8? line).map (· ++ ['\r']) := by
  cases hline : ofUtf8? line with
  | some text =>
      rw [eq_utf8_of_ofUtf8? hline, ← utf8_return, ← utf8_append, ofUtf8?_utf8]
      rfl
  | none =>
      refine Option.eq_none_iff_forall_ne_some.2 fun text htext => ?_
      obtain ⟨front, rfl, rfl⟩ := eq_concat_of_utf8_eq_concat (eq_utf8_of_ofUtf8? htext)
      rw [ofUtf8?_utf8] at hline
      cases hline

/-! ## Tokens of lines -/

theorem trim_concat {c : Char} (h : isBlank c = true) (text : List Char) :
    trim (text ++ [c]) = trim text := by
  rw [trim, trim, List.dropWhile_append]
  split
  · next hall =>
      rw [List.isEmpty_iff.1 hall, List.dropWhile_cons, if_pos h, List.dropWhile_nil]
  · rw [List.reverse_append, List.reverse_singleton, List.singleton_append, List.dropWhile_cons,
      if_pos h]

theorem trim_of_blank {text : List Char} (h : ∀ c ∈ text, isBlank c = true) : trim text = [] := by
  rw [trim, List.dropWhile_eq_nil_iff.2 h]
  rfl

/-- What a line says, without the blanks at its ends, when it is valid text. -/
def token? (line : List UInt8) : Option (List Char) := (ofUtf8? line).map trim

theorem token?_nil : token? [] = some [] := by
  rw [token?, ← show utf8 [] = [] from rfl, ofUtf8?_utf8]
  rfl

/-- A line that ends in a carriage return says the same without it. -/
theorem token?_closeLine (line : List UInt8) : token? (closeLine line.reverse) = token? line := by
  obtain rfl | ⟨front, b, rfl⟩ := line.eq_nil_or_concat
  · rfl
  rw [List.concat_eq_append, List.reverse_append, List.reverse_singleton, List.singleton_append,
    closeLine]
  split
  · next hb =>
      have trimmed : trim ∘ (· ++ ['\r']) = trim := funext (trim_concat (by decide))
      rw [hb, List.reverse_reverse, token?, token?, ofUtf8?_concat_return, Option.map_map, trimmed]
  · rw [List.reverse_cons, List.reverse_reverse]

/-- The line is valid text without anything but blanks. -/
def BlankLine (line : List UInt8) : Prop :=
  ∃ text : List Char, line = utf8 text ∧ ∀ c ∈ text, isBlank c = true

theorem blankLine_nil : BlankLine [] := ⟨[], rfl, List.forall_mem_nil _⟩

theorem BlankLine.token?_eq {line : List UInt8} (h : BlankLine line) : token? line = some [] := by
  obtain ⟨text, rfl, blank⟩ := h
  rw [token?, ofUtf8?_utf8, Option.map_some, trim_of_blank blank]

/-! ## The pieces between line feeds -/

theorem lines_of_notMem {l : List UInt8} (h : (0x0A : UInt8) ∉ l) :
    lines l = if l.isEmpty then [] else [l] := by
  have bytes : ∀ b ∈ l, b ≠ 0x0A := fun b hb heq => h (heq ▸ hb)
  have hlines := linesFrom_append bytes [] [] []
  rw [List.append_nil, List.append_nil] at hlines
  rw [lines, hlines, linesFrom, List.isEmpty_reverse, List.reverse_reverse]
  split
  · rfl
  · rfl

theorem lines_append_cons {l : List UInt8} (h : (0x0A : UInt8) ∉ l) (rest : List UInt8) :
    lines (l ++ 0x0A :: rest) = closeLine l.reverse :: lines rest := by
  have bytes : ∀ b ∈ l, b ≠ 0x0A := fun b hb heq => h (heq ▸ hb)
  rw [lines, linesFrom_append bytes, List.append_nil, linesFrom, if_pos rfl, linesFrom_done]
  rfl

/-- The lines of a text say what its pieces between line feeds say, and the empty piece
behind the last line feed is no line. -/
theorem token?_lines (text : List UInt8) :
    (lines text).map token? = (text.splitOn 0x0A).map token? ∨
      (lines text).map token? ++ [some []] = (text.splitOn 0x0A).map token? := by
  by_cases hmem : (0x0A : UInt8) ∈ text
  · obtain ⟨l, rest, htext, hl⟩ := List.eq_append_cons_of_mem hmem
    rw [htext, lines_append_cons hl, List.splitOn_append_cons_self_of_not_mem hl, List.map_cons,
      List.map_cons, token?_closeLine]
    refine (token?_lines rest).imp (congrArg (token? l :: ·)) fun hlast => ?_
    rw [List.cons_append, hlast]
  · rw [lines_of_notMem hmem, List.splitOn_eq_singleton hmem]
    split
    · next hempty =>
        rw [List.isEmpty_iff.1 hempty]
        exact .inr (congrArg (fun t => [t]) token?_nil.symm)
    · exact .inl rfl
termination_by text.length
decreasing_by
  rw [htext, List.length_append, List.length_cons]
  omega

end ListMode.Text
