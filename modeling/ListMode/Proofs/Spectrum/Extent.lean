import ListMode.Proofs.Export.Dense
import ListMode.Proofs.Outcome
import ListMode.Proofs.Spectrum.Bookkeeping
import ListMode.Proofs.Text.Tokens

/-!
# The extent of a spectrum

Whatever is done with a spectrum, no stored cell lies past the largest number it keeps,
every count fits 64 bits, and the number of axes stays (`Spectrum.applyAll_bounded`).
This needs no room for the total and no fresh totals in a setup: a raised cell is held
at the largest count, and a text or a file is read with the largest number it names.
-/

namespace ListMode

open Coincidence (Event)
open Coordinate (index)

/-! ## Counts that fit -/

namespace Cells

variable {κ : Type} [Coordinate κ]

/-- A stored count is the altered one or was stored before. -/
theorem mem_alter {c : Cells κ} {k : κ} {f : Option Nat → Nat} {e : κ × Nat}
    (h : e ∈ (c.alter k f).entries) : e.2 = f (c.get? k) ∨ e ∈ c.entries := by
  obtain ⟨l, n⟩ := e
  rw [← get?_eq_some_iff, get?_alter] at h
  split at h
  · exact .inl (Option.some.inj h).symm
  · exact .inr (get?_eq_some_iff.1 h)

/-- The cells of entries with counts that fit. -/
theorem fits_ofEntries {es : List (κ × Nat)} (h : ∀ e ∈ es, e.2 ≤ countLimit) :
    ∀ e ∈ (ofEntries es).entries, e.2 ≤ countLimit := by
  rw [ofEntries]
  split
  · exact h
  · clear * - h
    induction es with
    | nil => exact List.forall_mem_nil _
    | cons x es ih =>
        rw [List.forall_mem_cons] at h
        intro e he
        rw [List.foldr_cons] at he
        rcases mem_alter he with hcount | hmem
        · rw [hcount]
          cases hget : (es.foldr (fun e c => c.alter e.1 (·.getD e.2)) empty).get? x.1 with
          | none => exact h.1
          | some n => exact ih h.2 _ (get?_eq_some_iff.1 hget)
        · exact ih h.2 e hmem

end Cells

namespace Counts

/-- Every count fits. -/
def Fits (c : Counts) : Prop := ∀ e ∈ c.entries, e.2 ≤ countLimit

theorem fits_line {cells : Cells Bin} :
    (line cells).Fits ↔ ∀ e ∈ cells.entries, e.2 ≤ countLimit := by
  simp only [Fits, entries, List.forall_mem_map]

theorem fits_plane {cells touched : Cells Point} :
    (plane cells touched).Fits ↔ ∀ e ∈ cells.entries, e.2 ≤ countLimit := by
  simp only [Fits, entries, List.forall_mem_map]

theorem fits_zero (axes : Axes) : (zero axes).Fits := by
  cases axes with
  | one => exact fits_line.2 (List.forall_mem_nil _)
  | two => exact fits_plane.2 (List.forall_mem_nil _)

theorem axes_zero (axes : Axes) : (zero axes).axes = axes := by
  cases axes with
  | one => rfl
  | two => rfl

theorem axes_forgetTouched (c : Counts) : c.forgetTouched.axes = c.axes := by
  cases c with
  | line cells => rfl
  | plane cells touched => rfl

theorem Fits.forgetTouched {c : Counts} (h : c.Fits) : c.forgetTouched.Fits := by
  cases c with
  | line cells => exact h
  | plane cells touched => exact h

/-- A cell that is raised is held at the largest count. -/
theorem Fits.bump {c : Counts} (h : c.Fits) (buffered : Bool) (n : Nat) (coords : List Bin) :
    (c.bump buffered n coords).Fits := by
  unfold Counts.bump
  split
  · rw [fits_line] at h ⊢
    intro e he
    rcases Cells.mem_alter he with hcount | hmem
    · exact hcount ▸ Nat.min_le_right _ _
    · exact h e hmem
  · rw [fits_plane] at h ⊢
    intro e he
    rcases Cells.mem_alter he with hcount | hmem
    · exact hcount ▸ Nat.min_le_right _ _
    · exact h e hmem
  · exact h

end Counts

/-! ## Counts that are read -/

theorem le_countLimit_of_natural? {token : List Char} {n : Nat}
    (h : Text.natural? 64 token = some n) : n ≤ countLimit :=
  Nat.le_of_lt_succ (Text.natural?_lt h)

namespace RunLength

theorem countOf_le {t : Numbered} {n : Nat} (h : countOf t = .ok n) : n ≤ countLimit := by
  unfold countOf at h
  split at h
  · next hn =>
      cases h
      exact le_countLimit_of_natural? hn
  · cases h

theorem fits_decodeBins {column : Nat} {ts : List Numbered} {entries : List (Bin × Nat)}
    (h : decodeBins column ts = .ok entries) : ∀ e ∈ entries, e.2 ≤ countLimit := by
  induction column, ts using decodeBins.induct generalizing entries with
  | case1 column =>
      cases h
      exact List.forall_mem_nil _
  | case2 column t hzero => simp [decodeBins, hzero] at h
  | case3 column t hzero u rest ih =>
      rw [decodeBins, if_pos hzero] at h
      obtain ⟨n, -, h⟩ := exists_of_bind_eq_ok h
      exact ih n h
  | case4 column t rest hcount ih =>
      unfold decodeBins at h
      rw [if_neg hcount] at h
      obtain ⟨n, hn, h⟩ := exists_of_bind_eq_ok h
      obtain ⟨j, -, h⟩ := exists_of_bind_eq_ok h
      obtain ⟨later, hlater, h⟩ := exists_of_bind_eq_ok h
      cases h
      exact List.forall_mem_cons.2 ⟨countOf_le hn, ih hlater⟩

theorem fits_decodePoints {row column : Nat} {ts : List Numbered} {entries : List (Point × Nat)}
    (h : decodePoints row column ts = .ok entries) : ∀ e ∈ entries, e.2 ≤ countLimit := by
  induction row, column, ts using decodePoints.induct generalizing entries with
  | case1 row column =>
      cases h
      exact List.forall_mem_nil _
  | case2 row column t hplus => simp [decodePoints, hplus] at h
  | case3 row column t hplus u rest ih =>
      rw [decodePoints, if_pos hplus] at h
      obtain ⟨n, -, h⟩ := exists_of_bind_eq_ok h
      exact ih n h
  | case4 row column t _ hzero => simp [decodePoints, hzero] at h
  | case5 row column t hplus hzero u rest ih =>
      rw [decodePoints, if_neg hplus, if_pos hzero] at h
      obtain ⟨n, -, h⟩ := exists_of_bind_eq_ok h
      exact ih n h
  | case6 row column t rest hplus hcount ih =>
      unfold decodePoints at h
      rw [if_neg hplus, if_neg hcount] at h
      obtain ⟨n, hn, h⟩ := exists_of_bind_eq_ok h
      obtain ⟨i, -, h⟩ := exists_of_bind_eq_ok h
      obtain ⟨j, -, h⟩ := exists_of_bind_eq_ok h
      obtain ⟨later, hlater, h⟩ := exists_of_bind_eq_ok h
      cases h
      exact List.forall_mem_cons.2 ⟨countOf_le hn, ih hlater⟩

end RunLength

/-- The counts of a text fit. -/
theorem Counts.fits_ofText {axes : Axes} {text : List Char} {c : Counts} {m : Bin}
    (h : ofText axes text = .ok (c, m)) : c.Fits := by
  rcases ofText_eq_ok h with ⟨entries, hread, -, rfl, -⟩ | ⟨entries, hread, -, rfl, -⟩
  · exact fits_line.2 (Cells.fits_ofEntries (RunLength.fits_decodeBins hread))
  · exact fits_plane.2 (Cells.fits_ofEntries (RunLength.fits_decodePoints hread))

theorem Counts.axes_ofText {axes : Axes} {text : List Char} {c : Counts} {m : Bin}
    (h : ofText axes text = .ok (c, m)) : c.axes = axes := by
  rcases ofText_eq_ok h with ⟨entries, -, rfl, rfl, -⟩ | ⟨entries, -, rfl, rfl, -⟩
  · rfl
  · rfl

theorem Listing.fits_read {bytes : List UInt8} {l : Listing} (h : read bytes = .ok l) :
    (Counts.line l.cells).Fits := by
  obtain ⟨p, hread, rfl⟩ := read_eq_ok h
  have step : ∀ {p q : Progress} {line : Nat} {token : List Char},
      readToken p line token = .ok q → (∀ e ∈ p.entries, e.2 ≤ countLimit) →
        ∀ e ∈ q.entries, e.2 ≤ countLimit := by
    intro p q line token htoken fits
    rcases readToken_cases htoken with ⟨entries, -⟩ | ⟨n, hn, -, -, entries⟩
    · exact entries ▸ fits
    · rw [entries]
      split
      · exact fits
      · exact List.forall_mem_cons.2 ⟨le_countLimit_of_natural? hn, fits⟩
  have fits := readLines_keeps step hread (List.forall_mem_nil _)
  exact Counts.fits_line.2 (Cells.fits_ofEntries fun e he => fits e (List.mem_reverse.1 he))

theorem Dense.fits_read {bytes : ByteArray} {width : CellWidth} {cells : Cells Point}
    {side : Nat} (h : read bytes width = .ok (cells, side)) : (Counts.plane cells ∅).Fits := by
  obtain ⟨⟨k, -, hhigh, rfl, hsize⟩, hentries⟩ := read_eq_ok_iff.1 h
  have square : 2 ^ k * 2 ^ k = 4 ^ k := by rw [← Nat.mul_pow]
  rw [← square] at hsize
  have small : width.limit ≤ countLimit := by
    cases width with
    | two => decide
    | four => decide
  refine Counts.fits_plane.2 fun e he => ?_
  rw [hentries] at he
  obtain ⟨inside, hcount, -⟩ := (mem_populated (size_of_side hhigh)).1 he
  rw [← hcount]
  exact Nat.le_trans (countAt_le hsize (place_lt inside)) small

/-! ## One operation -/

namespace Tally

/-- No stored cell lies past the largest number, and every count fits. -/
structure Bounded (t : Tally) : Prop where
  within : t.counts.Within t.maxBin
  fits : t.counts.Fits

theorem bounded_zero (axes : Axes) (total : Nat) (maxBin : Bin) :
    Bounded ⟨.zero axes, total, maxBin⟩ :=
  ⟨Counts.within_zero axes maxBin, Counts.fits_zero axes⟩

theorem Bounded.raise {t : Tally} (h : t.Bounded) (buffered : Bool) (coords : List Bin) (n : Nat) :
    (t.raise buffered coords n).Bounded :=
  ⟨h.within.bump buffered n coords, h.fits.bump buffered n coords⟩

theorem Bounded.count {t : Tally} (h : t.Bounded) (m : Metadata) (e : Event) :
    (t.count m e).Bounded := by
  rw [Tally.count]
  split
  · exact h.raise _ _ 1
  · exact h

theorem Bounded.countAll {t : Tally} (h : t.Bounded) (m : Metadata) (es : List Event) :
    (t.countAll m es).Bounded ∧ (t.countAll m es).counts.axes = t.counts.axes := by
  induction es generalizing t with
  | nil => exact ⟨h, rfl⟩
  | cons e es ih =>
      obtain ⟨bounded, axes⟩ := ih (h.count m e)
      exact ⟨bounded, axes.trans (axes_count m t e)⟩

end Tally

namespace Spectrum

/-- No stored cell lies past the largest number, every count fits, and the spectrum has the given
axes. -/
structure Bounded (axes : Axes) (s : Spectrum) : Prop where
  tally : s.tally.Bounded
  axes : s.axes = axes

variable {axes : Axes} {s t : Spectrum}

theorem bounded_blank (axes : Axes) : (blank axes).Bounded axes :=
  ⟨Tally.bounded_zero axes 0 0, Counts.axes_zero axes⟩

theorem bounded_setUp {m : Metadata} (h : setUp axes m = .ok s) : s.Bounded axes := by
  obtain ⟨-, rfl⟩ := setUp_eq_ok h
  exact ⟨Tally.bounded_zero axes m.total m.maxBin, Counts.axes_zero axes⟩

theorem bounded_readText {text : List Char} (h : s.readText text = .ok t) : t.Bounded s.axes := by
  unfold readText at h
  split at h
  · cases h
  · next htext =>
      cases h
      exact ⟨⟨Counts.within_ofText htext, Counts.fits_ofText htext⟩, Counts.axes_ofText htext⟩

theorem bounded_load {fileName format : String} {contents : Except FolderFault ByteArray}
    (h : s.load fileName format contents = .ok (some t)) : t.Bounded s.axes := by
  rcases load_eq_ok h with ⟨_, l, hone, hread, rfl⟩ | ⟨_, _, cells, side, htwo, hread, rfl⟩
  · exact ⟨⟨Listing.within_read hread, Listing.fits_read hread⟩, hone.symm⟩
  · exact ⟨⟨Dense.within_read hread, Dense.fits_read hread⟩, htwo.symm⟩

theorem Bounded.feed (h : s.Bounded axes) (call : Feed) : (s.feed call).Bounded axes := by
  obtain ⟨b, counted⟩ := closes_counted s call
  obtain ⟨bounded, same⟩ := h.tally.countAll s.metadata.setup (s.closes call)
  rw [← counted.tally] at bounded same
  exact ⟨bounded, same.trans h.axes⟩

theorem Bounded.append (h : s.Bounded axes) (coords : List Bin) (n : Nat) :
    (s.append coords n).Bounded axes := by
  rw [Spectrum.append]
  split
  · exact ⟨h.tally.raise s.metadata.buffered coords n,
      (Counts.axes_bump _ _ _ _).trans h.axes⟩
  · exact h

/-- An operation keeps the bounds and the axes. -/
theorem Bounded.apply (h : s.Bounded axes) (op : Operation) : (s.apply op).Bounded axes := by
  cases op with
  | setUp m =>
      cases hset : setUp s.axes m with
      | error fault =>
          rw [Spectrum.apply, hset]
          exact h
      | ok t =>
          rw [Spectrum.apply, hset]
          exact h.axes ▸ bounded_setUp hset
  | feed call => exact h.feed call
  | append coords n => exact h.append coords n
  | reset =>
      have cleared := Tally.bounded_zero s.axes 0 0
      exact ⟨cleared, (Counts.axes_zero s.axes).trans h.axes⟩
  | readText text =>
      cases hread : s.readText text with
      | error fault =>
          rw [Spectrum.apply, hread]
          exact h
      | ok t =>
          rw [Spectrum.apply, hread]
          exact h.axes ▸ bounded_readText hread
  | load fileName format contents =>
      rcases hload : s.load fileName format contents with fault | _ | t
      · rw [Spectrum.apply, hload]
        exact h
      · rw [Spectrum.apply, hload]
        exact h
      · rw [Spectrum.apply, hload]
        exact h.axes ▸ bounded_load hload
  | readRange bounds =>
      rw [Spectrum.apply, readRange]
      split
      · exact ⟨⟨h.tally.within.forgetTouched, h.tally.fits.forgetTouched⟩,
          (Counts.axes_forgetTouched _).trans h.axes⟩
      · exact h
  | checkSymmetry =>
      rw [Spectrum.apply, checkSymmetry]
      split
      · exact ⟨h.tally, h.axes⟩
      · exact h
  | setDetectors ds => exact ⟨h.tally, h.axes⟩
  | clearChanged => exact ⟨h.tally, h.axes⟩

/-! ## All operations -/

/-- Whatever is done with a spectrum, its counts stay within its largest number and within 64
bits, and its axes stay. -/
theorem Bounded.applyAll (h : s.Bounded axes) (ops : List Operation) :
    (s.applyAll ops).Bounded axes := by
  induction ops generalizing s with
  | nil => exact h
  | cons op ops ih => exact ih (h.apply op)

end Spectrum

end ListMode
