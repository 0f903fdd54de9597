import ListMode.Proofs.Text.Tokens
import ListMode.Text.Lines
import ListMode.Text.Utf8

/-!
# Texts in lines, written and read

Lines of graphic ASCII characters, each with a line feed behind it, are the lines of
the bytes of the text (`Text.lines_utf8`).  Each of them is valid text and has no
blank to be trimmed, so it is read as the characters that were written
(`Text.ofUtf8?_utf8`, `Text.trim_of_not_blank`).
-/

namespace ListMode.Text

/-! ## Bytes -/

/-- The bytes of a text. -/
def utf8 (text : List Char) : List UInt8 := text.flatMap String.utf8EncodeChar

theorem utf8_append (as bs : List Char) : utf8 (as ++ bs) = utf8 as ++ utf8 bs :=
  List.flatMap_append

theorem utf8_newline : utf8 ['\n'] = [0x0A] := by decide

theorem toList_toUTF8 (text : List Char) : (String.ofList text).toUTF8.data.toList = utf8 text := by
  rw [String.toUTF8_eq_toByteArray, String.toByteArray_ofList, List.utf8Encode,
    List.toList_data_toByteArray]
  rfl

/-- The bytes of a text hold that text. -/
theorem ofUtf8?_utf8 (text : List Char) : ofUtf8? (utf8 text) = some text := by
  have bytes : (⟨(utf8 text).toArray⟩ : ByteArray) = (String.ofList text).toByteArray := by
    rw [← toList_toUTF8, Array.toArray_toList, String.toUTF8_eq_toByteArray]
  rw [ofUtf8?, bytes, String.fromUTF8?, dif_pos (String.ofList text).isValidUTF8]
  exact congrArg some String.toList_ofList

/-- A graphic character takes one byte, which ends no line. -/
theorem IsGraphic.utf8EncodeChar {c : Char} (h : IsGraphic c) {b : UInt8}
    (hb : b ∈ String.utf8EncodeChar c) : b ≠ 0x0A ∧ b ≠ 0x0D := by
  obtain ⟨hlow, hhigh⟩ := h
  have value : c.val.toNat = c.toNat := rfl
  have byte : b.toNat = c.toNat := by
    rw [String.utf8EncodeChar, value, if_pos (by omega), List.mem_singleton] at hb
    rw [hb, UInt8.toNat_ofNat_of_lt' (by show c.toNat < 256; omega)]
  constructor
  · rintro rfl
    have : c.toNat = 10 := byte.symm
    omega
  · rintro rfl
    have : c.toNat = 13 := byte.symm
    omega

/-! ## Lines -/

/-- The lines read before stand in front. -/
theorem linesFrom_done (bytes : List UInt8) : ∀ (line : List UInt8) (done : List (List UInt8)),
    linesFrom line done bytes = done.reverse ++ linesFrom line [] bytes := by
  induction bytes with
  | nil =>
      intro line done
      rw [linesFrom, linesFrom]
      split
      · simp
      · simp
  | cons b bytes ih =>
      intro line done
      rw [linesFrom, linesFrom]
      split
      · rw [ih [] (closeLine line :: done), ih [] [closeLine line], List.reverse_cons,
          List.append_assoc]
        rfl
      · exact ih (b :: line) done

/-- Bytes that are no line feed go to the line in hand. -/
theorem linesFrom_append {bytes : List UInt8} (h : ∀ b ∈ bytes, b ≠ 0x0A) (rest : List UInt8) :
    ∀ (line : List UInt8) (done : List (List UInt8)),
      linesFrom line done (bytes ++ rest) = linesFrom (bytes.reverse ++ line) done rest := by
  induction bytes with
  | nil => exact fun _ _ => rfl
  | cons b bytes ih =>
      intro line done
      rw [List.forall_mem_cons] at h
      rw [List.cons_append, linesFrom, if_neg h.1, ih h.2, List.reverse_cons, List.append_assoc,
        List.singleton_append]

theorem closeLine_reverse {line : List UInt8} (h : ∀ b ∈ line, b ≠ 0x0D) :
    closeLine line.reverse = line := by
  cases hline : line.reverse with
  | nil => exact (List.reverse_eq_nil_iff.1 hline).symm
  | cons b rest =>
      have last : b ≠ 0x0D := h b (List.mem_reverse.1 (hline ▸ List.mem_cons_self))
      rw [closeLine, if_neg last, ← hline, List.reverse_reverse]

/-- A line with a line feed behind it is the first line of the bytes. -/
theorem lines_append {line : List UInt8} (h : ∀ b ∈ line, b ≠ 0x0A ∧ b ≠ 0x0D)
    (rest : List UInt8) : lines (line ++ [0x0A] ++ rest) = line :: lines rest := by
  have hclose : closeLine (line.reverse ++ []) = line := by
    rw [List.append_nil, closeLine_reverse fun b hb => (h b hb).2]
  rw [lines, List.append_assoc, linesFrom_append fun b hb => (h b hb).1, List.singleton_append,
    linesFrom, if_pos rfl, hclose, linesFrom_done]
  rfl

/-- Lines that are written with a line feed behind each are the lines of the text. -/
theorem lines_utf8 {ls : List (List Char)} (h : ∀ l ∈ ls, ∀ c ∈ l, IsGraphic c) :
    lines (utf8 (ls.flatMap (· ++ ['\n']))) = ls.map utf8 := by
  induction ls with
  | nil => rfl
  | cons l ls ih =>
      rw [List.forall_mem_cons] at h
      have line : ∀ b ∈ utf8 l, b ≠ 0x0A ∧ b ≠ 0x0D := by
        intro b hb
        obtain ⟨c, hc, hbyte⟩ := List.mem_flatMap.1 hb
        exact (h.1 c hc).utf8EncodeChar hbyte
      rw [List.flatMap_cons, utf8_append, utf8_append, utf8_newline, lines_append line, ih h.2,
        List.map_cons]

/-! ## Trimming -/

theorem dropWhile_isBlank {text : List Char} (h : ∀ c ∈ text, isBlank c = false) :
    text.dropWhile isBlank = text := by
  cases text with
  | nil => rfl
  | cons c cs =>
      rw [List.dropWhile_cons, h c List.mem_cons_self, if_neg Bool.false_ne_true]

/-- A text without blanks has none at its ends. -/
theorem trim_of_not_blank {text : List Char} (h : ∀ c ∈ text, isBlank c = false) :
    trim text = text := by
  have backwards : ∀ c ∈ text.reverse, isBlank c = false := fun c hc => h c (List.mem_reverse.1 hc)
  rw [trim, dropWhile_isBlank h, dropWhile_isBlank backwards, List.reverse_reverse]

end ListMode.Text
