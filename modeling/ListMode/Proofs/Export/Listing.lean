import ListMode.Export.Listing
import ListMode.Proofs.Decimal.Whole
import ListMode.Proofs.Export.RunLength

/-!
# Listings, written and read

A listing has a line for every bin up to its last one, and a reader numbers the bins by
the lines.  So a spectrum with no cell past the last bin is read back with all of its
counts, and with the last bin it was written to (`Listing.read_write`).
-/

namespace ListMode.Listing

open RunLength (written)
open Text (utf8 decimal natural?_decimal)

/-! ## Bins by their lines -/

/-- The bins with a count, when counts are listed from a bin on. -/
def listed (bin : Nat) : List Nat → List (Bin × Nat)
  | [] => []
  | n :: ns => (if n = 0 then [] else [(UInt16.ofNat bin, n)]) ++ listed (bin + 1) ns

theorem listed_zeros (ns : List Nat) (k : Nat) : ∀ bin,
    listed bin (List.replicate k 0 ++ ns) = listed (bin + k) ns := by
  induction k with
  | zero => exact fun _ => rfl
  | succ k ih =>
      intro bin
      rw [List.replicate_succ, List.cons_append, listed, if_pos rfl, List.nil_append, ih,
        Nat.add_right_comm, Nat.add_assoc]

/-- The entries stand in ascending order, from a bin up to, and not with, another. -/
structure Between (bin stop : Nat) (entries : List (Bin × Nat)) : Prop where
  ascending : Ascending entries
  low : ∀ e ∈ entries, bin ≤ e.1.toNat
  high : ∀ e ∈ entries, e.1.toNat < stop

variable {bin stop : Nat} {j : Bin} {n : Nat} {entries : List (Bin × Nat)}

theorem Between.tail (h : Between bin stop ((j, n) :: entries)) :
    Between (j.toNat + 1) stop entries where
  ascending := (List.pairwise_cons.1 h.ascending).2
  low e he := (List.pairwise_cons.1 h.ascending).1 e he
  high e he := h.high e (List.mem_cons_of_mem _ he)

theorem Between.countsFrom (h : Between bin stop ((j, n) :: entries)) :
    countsFrom bin stop ((j, n) :: entries) =
      List.replicate (j.toNat - bin) 0 ++ n :: countsFrom (j.toNat + 1) stop entries := by
  rw [Listing.countsFrom, if_pos (h.high _ List.mem_cons_self)]

/-- There is a line for every bin. -/
theorem length_countsFrom (h : Between bin stop entries) :
    (countsFrom bin stop entries).length = stop - bin := by
  induction entries generalizing bin with
  | nil => exact List.length_replicate
  | cons e entries ih =>
      have low := h.low e List.mem_cons_self
      have high := h.high e List.mem_cons_self
      rw [h.countsFrom, List.length_append, List.length_replicate, List.length_cons, ih h.tail]
      omega

/-- The bins that are listed are those with a count. -/
theorem listed_countsFrom (h : Between bin stop entries) :
    listed bin (countsFrom bin stop entries) = written entries := by
  induction entries generalizing bin with
  | nil =>
      have zeros := listed_zeros [] (stop - bin) bin
      rwa [List.append_nil] at zeros
  | cons e entries ih =>
      obtain ⟨j, n⟩ := e
      have low : bin ≤ j.toNat := h.low _ List.mem_cons_self
      rw [h.countsFrom, listed_zeros, Nat.add_sub_cancel' low, listed, ih h.tail,
        UInt16.ofNat_toNat]
      by_cases hn : n = 0
      · simp [hn, written]
      · simp [hn, written]

theorem le_of_mem_countsFrom (h : Between bin stop entries)
    (fits : ∀ e ∈ entries, e.2 ≤ countLimit) :
    ∀ n ∈ countsFrom bin stop entries, n ≤ countLimit := by
  induction entries generalizing bin with
  | nil =>
      intro n hn
      rw [List.eq_of_mem_replicate hn]
      exact Nat.zero_le _
  | cons e entries ih =>
      intro n hn
      rw [List.forall_mem_cons] at fits
      rw [h.countsFrom, List.mem_append, List.mem_cons] at hn
      rcases hn with hzero | rfl | hlater
      · rw [List.eq_of_mem_replicate hzero]
        exact Nat.zero_le _
      · exact fits.1
      · exact ih h.tail fits.2 n hlater

/-! ## Reading what was written -/

theorem readLine_utf8 {p q : Progress} {line : Nat} {token : List Char} (hne : token ≠ [])
    (graphic : ∀ c ∈ token, Text.IsGraphic c) (h : readToken p line token = .ok q) :
    readLine p line (utf8 token) = .ok q := by
  have trimmed : Text.trim token = token :=
    Text.trim_of_not_blank fun c hc => (graphic c hc).not_blank
  have filled : token.isEmpty = false := List.isEmpty_eq_false_iff.2 hne
  simp only [readLine, Text.ofUtf8?_utf8, trimmed, filled, h, Bool.false_eq_true, if_false]

/-- A line with a count is the next bin's. -/
theorem readLine_decimal {p : Progress} {line : Nat} (hline : 2 ≤ line) {n : Nat}
    (fits : n ≤ countLimit) (room : p.bins < UInt16.size) :
    readLine p line (utf8 (decimal n)) =
      .ok { p with entries := (listed p.bins [n]).reverse ++ p.entries, bins := p.bins + 1 } := by
  have small : n < 2 ^ 64 := Nat.lt_of_le_of_lt fits (by decide)
  refine readLine_utf8 (Text.isToken_decimal n).ne_nil (fun c => Text.isGraphic_of_mem_decimal) ?_
  rw [readToken, if_neg (by omega), if_neg (by omega), natural?_decimal small]
  dsimp only
  rw [if_pos room]
  by_cases hn : n = 0
  · simp [hn, listed]
  · simp [hn, listed]

/-- Lines with counts are those of the bins from the next one on. -/
theorem readLines_decimal {ns : List Nat} (fits : ∀ n ∈ ns, n ≤ countLimit) :
    ∀ {p : Progress} {line : Nat}, 2 ≤ line → p.bins + ns.length ≤ UInt16.size →
      readLines p line (ns.map fun n => utf8 (decimal n)) =
        .ok { p with
          entries := (listed p.bins ns).reverse ++ p.entries
          bins := p.bins + ns.length } := by
  induction ns with
  | nil => exact fun _ _ => rfl
  | cons n ns ih =>
      intro p line hline room
      rw [List.forall_mem_cons] at fits
      rw [List.length_cons] at room
      have first := readLine_decimal (p := p) hline fits.1 (by omega)
      rw [List.map_cons, readLines, first]
      dsimp only
      rw [ih fits.2 (Nat.le_succ_of_le hline) (by dsimp only; omega)]
      simp only [listed, List.append_nil, List.reverse_append, List.append_assoc, List.length_cons,
        Nat.add_assoc, Nat.add_comm 1]

/-- The lines of a listing hold only graphic characters. -/
theorem isGraphic_lines (l : Listing) : ∀ line ∈ l.lines, ∀ c ∈ line, Text.IsGraphic c := by
  intro line hline c hc
  rw [lines, List.mem_cons, List.mem_cons] at hline
  rcases hline with rfl | rfl | hcount
  · exact Decimal.isGraphic_fixed hc
  · exact Decimal.isGraphic_fixed hc
  · obtain ⟨n, -, rfl⟩ := List.mem_map.1 hcount
    exact Text.isGraphic_of_mem_decimal hc

theorem Between.of_within {l : Listing} (within : ∀ e ∈ l.cells.entries, e.1 ≤ l.lastBin) :
    Between 0 (l.lastBin.toNat + 1) l.cells.entries where
  ascending := l.cells.ascending
  low _ _ := Nat.zero_le _
  high e he := Nat.lt_succ_of_le (UInt16.le_iff_toNat_le.1 (within e he))

/-- The lines of a listing are read to the end. -/
theorem readLines_lines {l : Listing} (within : ∀ e ∈ l.cells.entries, e.1 ≤ l.lastBin)
    (fits : ∀ e ∈ l.cells.entries, e.2 ≤ countLimit) {live real : Float}
    (hlive : Decimal.read? (Decimal.fixed 0 l.liveTime) = some live)
    (hreal : Decimal.read? (Decimal.fixed 0 l.realTime) = some real) :
    readLines {} 0 (l.lines.map utf8) =
      .ok
        { liveTime := live
          realTime := real
          entries := (written l.cells.entries).reverse
          bins := l.lastBin.toNat + 1 } := by
  have between := Between.of_within within
  have length := length_countsFrom between
  have bins := listed_countsFrom between
  let counts := countsFrom 0 (l.lastBin.toNat + 1) l.cells.entries
  let p₁ : Progress := { liveTime := live }
  let p₂ : Progress := { liveTime := live, realTime := real }
  have first : readLine {} 0 (utf8 (Decimal.fixed 0 l.liveTime)) = .ok p₁ := by
    refine readLine_utf8 (Decimal.fixed_ne_nil _) (fun c => Decimal.isGraphic_fixed) ?_
    rw [readToken, if_pos rfl, hlive]
  have second : readLine p₁ 1 (utf8 (Decimal.fixed 0 l.realTime)) = .ok p₂ := by
    refine readLine_utf8 (Decimal.fixed_ne_nil _) (fun c => Decimal.isGraphic_fixed) ?_
    rw [readToken, if_neg (by decide), if_pos rfl, hreal]
  have room : p₂.bins + counts.length ≤ UInt16.size := by
    rw [length, Nat.sub_zero, Nat.zero_add]
    exact l.lastBin.toNat_lt
  have later := readLines_decimal (le_of_mem_countsFrom between fits) (Nat.le_refl 2) room
  rw [bins, length, List.append_nil, Nat.sub_zero, Nat.zero_add] at later
  rw [lines, List.map_cons, List.map_cons, List.map_map, readLines, first]
  dsimp only
  rw [readLines, second]
  exact later

/-- A listing of cells up to the last bin is read back with the counts of all of them, with the
same last bin, and with the times as they were written in whole seconds. -/
theorem read_write {l : Listing} (within : ∀ e ∈ l.cells.entries, e.1 ≤ l.lastBin)
    (fits : ∀ e ∈ l.cells.entries, e.2 ≤ countLimit) :
    ∃ read, Listing.read l.write.toUTF8.data.toList = .ok read ∧
      read.cells.entries = written l.cells.entries ∧ read.lastBin = l.lastBin ∧
      Decimal.read? (Decimal.fixed 0 l.liveTime) = some read.liveTime ∧
      Decimal.read? (Decimal.fixed 0 l.realTime) = some read.realTime := by
  obtain ⟨live, hlive⟩ := Option.isSome_iff_exists.1 (Decimal.isSome_read?_fixed l.liveTime)
  obtain ⟨real, hreal⟩ := Option.isSome_iff_exists.1 (Decimal.isSome_read?_fixed l.realTime)
  have lines := readLines_lines within fits hlive hreal
  let done : Progress := ⟨live, real, (written l.cells.entries).reverse, l.lastBin.toNat + 1⟩
  refine ⟨done.listing, ?_, ?_, ?_, hlive, hreal⟩
  · rw [read, write, Text.toList_toUTF8, Text.lines_utf8 (isGraphic_lines l), lines]
    rfl
  · show (Cells.ofEntries (written l.cells.entries).reverse.reverse).entries = _
    rw [List.reverse_reverse]
    exact Cells.entries_ofEntries (RunLength.ascending_written l.cells)
  · show UInt16.ofNat (l.lastBin.toNat + 1 - 1) = l.lastBin
    rw [Nat.add_sub_cancel, UInt16.ofNat_toNat]

end ListMode.Listing
