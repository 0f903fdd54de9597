import ListMode.Proofs.Export.Naming
import ListMode.Proofs.Spectrum.Growth

/-!
# Counts from texts

Each count token of a text names one cell.  On one axis the place only goes forward, so every
count is stored, and the sum of the counts is that of the tokens.  On two axes this holds as long
as every move to another row goes at least one row on.  A move of no rows goes back to the first
column of its row, so that a cell can be named again, and then only its last count is kept: the
sum of the counts is short of that of the tokens by what was overwritten
(`Spectrum.text_counts_stored`).

The total of a spectrum is counted anew from what is stored, so it does not tell of counts that
were overwritten.
-/

namespace ListMode.Spectrum

open RunLength (countTokens decode₁ decode₂ itemsOf)
open Text (natural?)

/-! ## Reading a text into a spectrum -/

theorem readText_points {s : Spectrum} (two : s.axes = .two) {text : List Char}
    {points : Cells Point} {m : Bin} (h : decode₂ text = .ok (points, m)) :
    ∃ t, s.readText text = .ok t ∧ t.counts = .plane points ∅ ∧
      t.metadata.total = min points.sum countLimit := by
  have read := Counts.ofText_two_eq_ok_iff.2 ⟨points, h, rfl⟩
  rw [readText, two, read]
  exact ⟨_, rfl, rfl, rfl⟩

theorem readText_bins {s : Spectrum} (one : s.axes = .one) {text : List Char}
    {bins : Cells Bin} {m : Bin} (h : decode₁ text = .ok (bins, m)) :
    ∃ t, s.readText text = .ok t ∧ t.counts = .line bins ∧
      t.metadata.total = min bins.sum countLimit := by
  have read := Counts.ofText_one_eq_ok_iff.2 ⟨bins, h, rfl⟩
  rw [readText, one, read]
  exact ⟨_, rfl, rfl, rfl⟩

/-! ## Counts that are kept -/

/-- Every count token of a text names an entry, and of the entries of a cell the last is kept.
With two axes the sum of the counts is short of the sum of the tokens by what was overwritten, and
nothing was when every move to another row goes at least one row on.  With one axis nothing ever
is.  The total of a spectrum that reads the text is the sum of its counts, as far as it fits. -/
theorem text_counts_stored (text : List Char) :
    (∀ points m, decode₂ text = .ok (points, m) →
      (∃ named : List (Point × Nat),
        (countTokens .two text).map (natural? 64) = named.map (fun e => some e.2) ∧
        (∀ p, points.get? p = named.reverse.lookup p) ∧
        points.sum + ((overwritten named).map Prod.snd).sum = (named.map Prod.snd).sum ∧
        ((∀ item ∈ itemsOf .two text, item.Advances) →
          points.entries = named ∧ overwritten named = [] ∧
            points.sum = (named.map Prod.snd).sum)) ∧
      ∀ s : Spectrum, s.axes = .two → ∃ t, s.readText text = .ok t ∧
        t.counts = .plane points ∅ ∧ t.metadata.total = min points.sum countLimit) ∧
    ∀ bins m, decode₁ text = .ok (bins, m) →
      (∃ named : List (Bin × Nat),
        (countTokens .one text).map (natural? 64) = named.map (fun e => some e.2) ∧
        bins.entries = named ∧ overwritten named = [] ∧ bins.sum = (named.map Prod.snd).sum) ∧
      ∀ s : Spectrum, s.axes = .one → ∃ t, s.readText text = .ok t ∧
        t.counts = .line bins ∧ t.metadata.total = min bins.sum countLimit := by
  constructor
  · intro points m h
    refine ⟨?_, fun s two => readText_points two h⟩
    obtain ⟨named, names, rfl, -⟩ := RunLength.decode₂_eq_ok h
    refine ⟨named, names.values, Cells.get?_ofEntries named, Cells.sum_ofEntries named, ?_⟩
    intro advance
    have ascending := names.ascending advance
    have stored := Cells.entries_ofEntries ascending
    exact ⟨stored, overwritten_of_ascending ascending, by rw [Cells.sum_eq, stored]⟩
  · intro bins m h
    refine ⟨⟨bins.entries, ?_, rfl, overwritten_of_ascending bins.ascending, bins.sum_eq⟩,
      fun s one => readText_bins one h⟩
    have values := (RunLength.decode₁_eq_ok h).1.values
    rwa [List.map_map] at values

/-- Two rows, a run of bins and numbers with zeros in front. -/
def forwardText : List Char := "+ 1 0 2 5 007 + 1 0 0 3".toList

theorem text_counts_stored_forwardText :
    (∀ item ∈ itemsOf .two forwardText, item.Advances) ∧
      ∃ points, decode₂ forwardText = .ok (points, 3) ∧
        points.entries = [(⟨1, 2⟩, 5), (⟨1, 3⟩, 7), (⟨2, 0⟩, 3)] ∧
        (countTokens .two forwardText).map (natural? 64) = [some 5, some 7, some 3] ∧
        ∃ t, (blank .two).readText forwardText = .ok t ∧ t.metadata.total = 15 := by
  have advance : ∀ item ∈ itemsOf .two forwardText, item.Advances := by decide +kernel
  let points : Cells Point := .ofEntries [(⟨1, 2⟩, 5), (⟨1, 3⟩, 7), (⟨2, 0⟩, 3)]
  have read : decode₂ forwardText = .ok (points, 3) := eq_ok_of_toOption (by decide +kernel)
  have entries : points.entries = [(⟨1, 2⟩, 5), (⟨1, 3⟩, 7), (⟨2, 0⟩, 3)] := by decide +kernel
  obtain ⟨⟨named, values, -, -, kept⟩, readers⟩ := (text_counts_stored forwardText).1 points 3 read
  obtain ⟨rfl, -, sum⟩ := kept advance
  obtain ⟨t, ht, -, total⟩ := readers (blank .two) rfl
  rw [sum, entries] at total
  rw [entries] at values
  exact ⟨advance, points, read, entries, values, t, ht, total⟩

/-- A move of no rows goes back to the cell of the count in front of it. -/
theorem count_overwritten :
    (countTokens .two "5 + 0 7".toList).map (natural? 64) = [some 5, some 7] ∧
      ∃ points, decode₂ "5 + 0 7".toList = .ok (points, 0) ∧ points.entries = [(⟨0, 0⟩, 7)] ∧
        ∃ t, (blank .two).readText "5 + 0 7".toList = .ok t ∧ t.metadata.total = 7 := by
  let points : Cells Point := .ofEntries [(⟨0, 0⟩, 7)]
  have read : decode₂ "5 + 0 7".toList = .ok (points, 0) := eq_ok_of_toOption (by decide +kernel)
  obtain ⟨t, ht, -, total⟩ := readText_points (s := blank .two) rfl read
  have sum : min points.sum countLimit = 7 := by decide +kernel
  exact ⟨by decide +kernel, points, read, by decide +kernel, t, ht, total.trans sum⟩

end ListMode.Spectrum
