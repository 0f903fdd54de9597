import ListMode.Proofs.Export.Naming
import ListMode.Proofs.Spectrum.Extent

/-!
# Texts that are written again

The cells that a text is read as are written with as little as possible, whatever moves and
spellings of numbers the text had.  What is written is read as the same cells, but for those
that are stored with a zero (`RunLength.recoding_keeps_counts`).  A lone `0` is a move, but a
zero in any other spelling is read as a count, and the cell is then stored and counts for the
highest number.  Cells and highest number come back if and only if there are no such cells, and
there are none when no count token of the text says zero.

The highest number is known by the numbers that it is the highest of, so it does not matter
that a text may name a cell more than once (`RunLength.Highest.congr`).
-/

namespace ListMode.RunLength

open Text (natural?)

/-! ## What is written is read -/

/-- The cells with a count and the highest of their numbers are read back. -/
theorem decode₂_encode₂ {cells : Cells Point} (fits : ∀ e ∈ cells.entries, e.2 ≤ countLimit) :
    decode₂ (encode₂ cells) =
      .ok (.ofEntries (written cells.entries), highestPoint (written cells.entries)) := by
  have read : decodePoints 0 0 (numbered (encode₂ cells)) = .ok (written cells.entries) :=
    decodePoints_encodePoints (ascending_written cells) (counts_written fits)
      (fun e _ => by omega) (map_snd_numbered (encode₂ cells))
  rw [decode₂, read]
  rfl

theorem decode₁_encode₁ {cells : Cells Bin} (fits : ∀ e ∈ cells.entries, e.2 ≤ countLimit) :
    decode₁ (encode₁ cells) =
      .ok (.ofEntries (written cells.entries), highestBin (written cells.entries)) := by
  have read : decodeBins 0 (numbered (encode₁ cells)) = .ok (written cells.entries) :=
    decodeBins_encodeBins (ascending_written cells) (counts_written fits)
      (map_snd_numbered (encode₁ cells))
  rw [decode₁, read]
  rfl

/-! ## Highest numbers -/

/-- A list has one highest number. -/
theorem Highest.unique {m k : Bin} {numbers : List Bin} (hm : Highest m numbers)
    (hk : Highest k numbers) : m = k := by
  obtain ⟨above, attained⟩ := hm
  obtain ⟨above', attained'⟩ := hk
  refine UInt16.le_antisymm ?_ ?_
  · rcases attained with rfl | attained
    · exact UInt16.zero_le
    · exact above' m attained
  · rcases attained' with rfl | attained'
    · exact UInt16.zero_le
    · exact above k attained'

theorem Highest.congr {m : Bin} {numbers others : List Bin} (h : Highest m numbers)
    (same : ∀ c, c ∈ others ↔ c ∈ numbers) : Highest m others :=
  ⟨fun c hc => h.1 c ((same c).1 hc), h.2.imp_right (same m).2⟩

/-- The highest number of entries is that of their cells. -/
theorem highestPoint_ofEntries (named : List (Point × Nat)) :
    highestPoint (Cells.ofEntries named).entries = highestPoint named := by
  refine (highest_highestPoint _).unique ((highest_highestPoint named).congr fun c => ?_)
  simp only [List.mem_flatMap]
  constructor
  · rintro ⟨e, he, hc⟩
    exact ⟨e, Cells.mem_of_mem_ofEntries he, hc⟩
  · rintro ⟨e, he, hc⟩
    obtain ⟨n, stored⟩ : ∃ n, (Cells.ofEntries named).get? e.1 = some n :=
      Option.ne_none_iff_exists'.1 fun none =>
        Cells.get?_ofEntries_eq_none_iff.1 none (List.mem_map_of_mem he)
    exact ⟨(e.1, n), Cells.get?_eq_some_iff.1 stored, hc⟩

/-- Leaving out the cells that are stored with a zero changes nothing if and only if there are
no such cells. -/
theorem written_same_iff {κ : Type} [Coordinate κ] (cells : Cells κ)
    (highest : List (κ × Nat) → Bin) :
    .ofEntries (written cells.entries) = cells ∧
        highest (written cells.entries) = highest cells.entries ↔
      ∀ e ∈ cells.entries, e.2 ≠ 0 := by
  have entries := Cells.entries_ofEntries (ascending_written cells)
  constructor
  · rintro ⟨same, -⟩ e he
    rw [← same, entries] at he
    simpa using (List.mem_filter.1 he).2
  · intro populated
    have all : written cells.entries = cells.entries :=
      List.filter_eq_self.2 fun e he => by simpa using populated e he
    exact ⟨Cells.entries_inj.1 (entries.trans all), congrArg highest all⟩

/-! ## Texts -/

/-- When no count token says zero, no entry is named with a zero. -/
theorem Names.populated {row column : Nat} {its : List Item} {entries : List (Point × Nat)}
    (h : Names row column its entries)
    (said : ∀ token ∈ its.filterMap Item.token?, natural? 64 token ≠ some 0) :
    ∀ e ∈ entries, e.2 ≠ 0 := by
  intro e he zero
  have named : some e.2 ∈ (its.filterMap Item.token?).map (natural? 64) :=
    h.values ▸ List.mem_map.2 ⟨e, he, rfl⟩
  obtain ⟨token, htoken, value⟩ := List.mem_map.1 named
  exact said token htoken (zero ▸ value)

theorem populated_decode₂ {text : List Char} {points : Cells Point} {m : Bin}
    (h : decode₂ text = .ok (points, m))
    (said : ∀ token ∈ countTokens .two text, natural? 64 token ≠ some 0) :
    ∀ e ∈ points.entries, e.2 ≠ 0 := by
  obtain ⟨named, names, rfl, -⟩ := decode₂_eq_ok h
  exact fun e he => names.populated said e (Cells.mem_of_mem_ofEntries he)

theorem populated_decode₁ {text : List Char} {bins : Cells Bin} {m : Bin}
    (h : decode₁ text = .ok (bins, m))
    (said : ∀ token ∈ countTokens .one text, natural? 64 token ≠ some 0) :
    ∀ e ∈ bins.entries, e.2 ≠ 0 := by
  intro e he
  exact (decode₁_eq_ok h).1.populated said _ (List.mem_map_of_mem he)

theorem fits_decode₂ {text : List Char} {points : Cells Point} {m : Bin}
    (h : decode₂ text = .ok (points, m)) : ∀ e ∈ points.entries, e.2 ≤ countLimit :=
  Counts.fits_plane.1 (Counts.fits_ofText (Counts.ofText_two_eq_ok_iff.2 ⟨points, h, rfl⟩))

theorem fits_decode₁ {text : List Char} {bins : Cells Bin} {m : Bin}
    (h : decode₁ text = .ok (bins, m)) : ∀ e ∈ bins.entries, e.2 ≤ countLimit :=
  Counts.fits_line.1 (Counts.fits_ofText (Counts.ofText_one_eq_ok_iff.2 ⟨bins, h, rfl⟩))

/-- Whatever a text was read as is written as a text that is read again.  Only cells that are
stored with a zero are missing then.  The cells and the highest number are the same if and only
if there are no such cells, and so they are when no count token of the text says zero. -/
theorem recoding_keeps_counts (text : List Char) :
    (∀ points m, decode₂ text = .ok (points, m) →
      ∃ read k, decode₂ (encode₂ points) = .ok (read, k) ∧
        read.entries = points.entries.filter (fun e => e.2 ≠ 0) ∧
        (read = points ∧ k = m ↔ ∀ e ∈ points.entries, e.2 ≠ 0) ∧
        ((∀ token ∈ countTokens .two text, natural? 64 token ≠ some 0) →
          read = points ∧ k = m)) ∧
      ∀ bins m, decode₁ text = .ok (bins, m) →
        ∃ read k, decode₁ (encode₁ bins) = .ok (read, k) ∧
          read.entries = bins.entries.filter (fun e => e.2 ≠ 0) ∧
          (read = bins ∧ k = m ↔ ∀ e ∈ bins.entries, e.2 ≠ 0) ∧
          ((∀ token ∈ countTokens .one text, natural? 64 token ≠ some 0) →
            read = bins ∧ k = m) := by
  constructor
  · intro points m h
    have highest : m = highestPoint points.entries := by
      obtain ⟨named, -, rfl, rfl⟩ := decode₂_eq_ok h
      exact (highestPoint_ofEntries named).symm
    have same := written_same_iff points highestPoint
    rw [← highest] at same
    exact ⟨_, _, decode₂_encode₂ (fits_decode₂ h), Cells.entries_ofEntries (ascending_written _),
      same, fun said => same.2 (populated_decode₂ h said)⟩
  · intro bins m h
    have same := written_same_iff bins highestBin
    rw [← (decode₁_eq_ok h).2] at same
    exact ⟨_, _, decode₁_encode₁ (fits_decode₁ h), Cells.entries_ofEntries (ascending_written _),
      same, fun said => same.2 (populated_decode₁ h said)⟩

/-- A zero that is spelled with two digits is stored in the last cell that the text names, and
that cell and its number do not come back. -/
theorem zero_not_recoded :
    ∃ points read, decode₂ "5 0 7 00".toList = .ok (points, 8) ∧
      decode₂ (encode₂ points) = .ok (read, 0) ∧ read ≠ points := by
  refine ⟨.ofEntries [(⟨0, 0⟩, 5), (⟨0, 8⟩, 0)], .ofEntries [(⟨0, 0⟩, 5)], ?_, ?_, ?_⟩
  · exact eq_ok_of_toOption (by decide +kernel)
  · exact eq_ok_of_toOption (by decide +kernel)
  · decide +kernel

/-- Moves that could be shorter, numbers with signs and zeros in front, and a move at the end. -/
def looseText : List Char := "0 0 + 00 0 1 +7 + 1 + +1 0 2 0 0001 012 0 9".toList

theorem recoding_keeps_counts_looseText :
    (∀ token ∈ countTokens .two looseText, natural? 64 token ≠ some 0) ∧
      ∃ points, decode₂ looseText = .ok (points, 3) ∧
        points.entries = [(⟨0, 1⟩, 7), (⟨2, 3⟩, 12)] ∧
        encode₂ points = "0 1 7 + 2 0 3 12 ".toList ∧
        decode₂ (encode₂ points) = .ok (points, 3) := by
  have said : ∀ token ∈ countTokens .two looseText, natural? 64 token ≠ some 0 := by
    decide +kernel
  let points : Cells Point := .ofEntries [(⟨0, 1⟩, 7), (⟨2, 3⟩, 12)]
  have read : decode₂ looseText = .ok (points, 3) := eq_ok_of_toOption (by decide +kernel)
  obtain ⟨again, k, reread, -, -, same⟩ := (recoding_keeps_counts looseText).1 points 3 read
  obtain ⟨rfl, rfl⟩ := same said
  exact ⟨said, points, read, by decide +kernel, by decide +kernel, reread⟩

end ListMode.RunLength
