import ListMode.Proofs.Export.Dense
import ListMode.Proofs.Export.Listing
import ListMode.Proofs.Folder
import ListMode.Proofs.Spectrum.Extent

/-!
# Spectrum files, written and read

A spectrum that was exported lies in its folder with the contents that its format has
for it (`Spectrum.read_writeFile`).

A listing goes up to the largest number that the spectrum keeps.  Every operation keeps
that number above all cells, so whatever was done with a spectrum before, its listing
has all of its counts (`Spectrum.listing_file_keeps_counts`).

A spectrum forgets the side of the grid it was read from and keeps a resolution.  For
narrow cells the side that is written follows from the resolution, and is the side
read; wide cells are always written at the largest side
(`CellWidth.exportSide_log2`).  So a grid file goes through a spectrum without a
change of a byte (`Spectrum.grid_file_reproduced`).
-/

namespace ListMode

/-! ## Formats -/

/-- The name of the format with cells of a size. -/
def FileFormat.gridName : CellWidth → String
  | .two => "mat"
  | .four => "m4b"

theorem FileFormat.ofName?_gridName (width : CellWidth) :
    ofName? (gridName width) = some (.grid width) := by
  cases width with
  | two => rfl
  | four => rfl

theorem FileFormat.no_separator_gridName (width : CellWidth) : '/' ∉ (gridName width).toList := by
  cases width with
  | two => decide
  | four => decide

/-- The side that is written for the resolution of a grid. -/
theorem CellWidth.exportSide_log2 {width : CellWidth} {k : Nat} (hk : k ≤ 12)
    (h : width = .two ∨ 2 ^ k = maxGridSide) : width.exportSide (2 ^ k).log2 = 2 ^ k := by
  have hlargest : 2 ^ k ≤ maxGridSide := Nat.pow_le_pow_right (by decide) hk
  cases width with
  | two =>
      rw [exportSide, gridSide, Nat.log2_two_pow, Nat.one_shiftLeft,
        Nat.min_eq_left (show k ≤ 16 by omega), Nat.min_eq_left hlargest]
  | four =>
      rcases h with hwidth | hside
      · cases hwidth
      · exact hside.symm

namespace Spectrum

/-! ## Exported files -/

/-- An exported file is read back as the contents that the format has for the spectrum. -/
theorem read_writeFile {s : Spectrum} {f f' : Folder} {dir : FolderPath} {format : String}
    (hf : f.Regular) (hformat : '/' ∉ format.toList)
    (h : s.writeFile f dir format = .ok (some f')) :
    ∃ contents, s.fileContents? format = some contents ∧
      f'.read (Folder.within dir (s.fileName format)) = .ok contents := by
  unfold writeFile at h
  split at h
  · next contents hcontents =>
    cases hwrite : f.write (Folder.within dir (s.fileName format)) contents with
    | error fault =>
        rw [hwrite] at h
        cases h
    | ok g =>
        rw [hwrite] at h
        cases h
        have named := Folder.getLast?_within_ne_null dir s.metadata.name hformat
        exact ⟨contents, hcontents, Folder.read_write hf hwrite named⟩
  · cases h

/-! ## Listings -/

theorem exists_line_of_axes {c : Counts} (hone : c.axes = .one) : ∃ cells, c = .line cells := by
  cases c with
  | line cells => exact ⟨cells, rfl⟩
  | plane cells touched => cases hone

/-- A spectrum that is read from a listing. -/
theorem load_listing {s : Spectrum} (hone : s.axes = .one) {bytes : ByteArray} {l : Listing}
    (hread : Listing.read bytes.data.toList = .ok l) (fileName : String) :
    s.load fileName "tka" (.ok bytes) =
      .ok (some (replaced (.line l.cells) (listingMetadata s.metadata fileName l))) := by
  have format : FileFormat.ofName? "tka" = some .listing := rfl
  rw [load, hone, format]
  dsimp only
  rw [hread]

/-- Whatever was done with a one-axis spectrum, its exported listing is read into any one-axis
spectrum, which then has the count of every bin, the sum of the counts as its total, the same
largest number, and a resolution with room for every bin with a count. -/
theorem listing_file_keeps_counts (ops : List Operation) {f f' : Folder} {dir : FolderPath}
    (hf : f.Regular)
    (hwrite : ((blank .one).applyAll ops).writeFile f dir "tka" = .ok (some f')) :
    let s := (blank .one).applyAll ops
    ∀ (t : Spectrum) (fileName : String), t.axes = .one →
      ∃ u, t.load fileName "tka" (f'.read (Folder.within dir (s.fileName "tka"))) = .ok (some u) ∧
        (∀ b, u.counts.count [b] = s.counts.count [b]) ∧
        u.metadata.total = (s.counts.entries.map Prod.snd).sum ∧
        u.metadata.maxBin = s.metadata.maxBin ∧
        ∀ b, u.counts.count [b] ≠ 0 → b.toNat < 2 ^ u.metadata.bits := by
  intro s t fileName hone
  -- the history only matters for this: no cell lies past the last line, and no count is too large
  have bounded : s.Bounded .one := (bounded_blank .one).applyAll ops
  obtain ⟨cells, hcells⟩ := exists_line_of_axes bounded.axes
  obtain ⟨⟨within, fits⟩, -⟩ := bounded
  rw [tally, hcells] at within fits
  obtain ⟨contents, hcontents, hfile⟩ := read_writeFile hf (by decide) hwrite
  have written : s.fileContents? "tka" = some (listing s.metadata cells).write.toUTF8 := by
    rw [fileContents?, hcells]
    rfl
  obtain rfl := Option.some.inj (hcontents.symm.trans written)
  obtain ⟨l, hread, hentries, hlast, -⟩ :=
    Listing.read_write (l := listing s.metadata cells) (Counts.within_line.1 within)
      (Counts.fits_line.1 fits)
  have counts : ∀ b, l.cells.count b = cells.count b := RunLength.count_of_written hentries
  have total : l.cells.sum = s.counts.sum := by
    rw [hcells, Counts.sum_line, Cells.sum_eq, hentries, RunLength.sum_written, Cells.sum_eq]
    rfl
  rw [hfile]
  refine ⟨_, load_listing hone hread fileName, ?_, total, hlast, ?_⟩
  · rw [hcells]
    exact counts
  · intro b populated
    have stored := Cells.mem_of_count_pos (Nat.pos_of_ne_zero populated)
    have low : b ≤ l.lastBin := Counts.within_line.1 (Listing.within_read hread) _ stored
    exact Nat.lt_of_le_of_lt (UInt16.le_iff_toNat_le.1 low) Nat.lt_log2_self

/-- A setup, a hit, counts added by hand and a text that is none. -/
def lineOperations : List Operation :=
  [.setUp { bits := 8, add := .ofChannels [0], window := 10.0 },
    .feed (.push { hits := [strike 0 100 0x1234] }),
    .feed .flush,
    .append [200] 7,
    .readText "0 x".toList,
    .append [3] 4]

theorem listing_file_keeps_counts_line :
    ∃ f' u, ({} : Folder).Regular ∧
      ((blank .one).applyAll lineOperations).writeFile {} [] "tka" = .ok (some f') ∧
      (blank .one).load "h.tka" "tka" (f'.read ["histogram.tka"]) = .ok (some u) ∧
      u.counts.count [0x12] = 1 ∧ u.counts.count [200] = 7 ∧ u.counts.count [5] = 0 ∧
      u.metadata.total = 12 ∧ u.metadata.maxBin = 200 ∧
      (200 : Bin).toNat < 2 ^ u.metadata.bits := by
  let s := (blank .one).applyAll lineOperations
  have hregular : ({} : Folder).Regular := fun e he => nomatch he
  obtain ⟨cells, hcells⟩ : ∃ cells, s.counts = .line cells := ⟨_, rfl⟩
  have hcontents : s.fileContents? "tka" = some (listing s.metadata cells).write.toUTF8 := by
    rw [fileContents?, hcells]
    rfl
  have hname : s.metadata.name = "histogram" := by decide +kernel
  have hpath : Folder.within [] (s.fileName "tka") = ["histogram.tka"] := by
    rw [fileName, hname]
    decide +kernel
  have hwrite : s.writeFile {} [] "tka" =
      .ok (some ⟨[(["histogram.tka"], .file (listing s.metadata cells).write.toUTF8)]⟩) := by
    rw [writeFile, hcontents, hpath]
    rfl
  have counts : s.counts.count [0x12] = 1 ∧ s.counts.count [200] = 7 ∧ s.counts.count [5] = 0 := by
    decide +kernel
  have sum : (s.counts.entries.map Prod.snd).sum = 12 := by decide +kernel
  have last : s.metadata.maxBin = 200 := by decide +kernel
  obtain ⟨u, hload, same, total, maxBin, room⟩ :=
    listing_file_keeps_counts lineOperations hregular hwrite (blank .one) "h.tka" rfl
  have populated : u.counts.count [200] = 7 := (same 200).trans counts.2.1
  refine ⟨_, u, hregular, hwrite, hpath ▸ hload, ?_, populated, ?_, ?_, ?_, ?_⟩
  · exact (same 0x12).trans counts.1
  · exact (same 5).trans counts.2.2
  · exact total.trans sum
  · exact maxBin.trans last
  · exact room 200 (by rw [populated]; decide)

/-! ## Grids -/

/-- A spectrum that is read from a grid. -/
theorem load_grid {s : Spectrum} (htwo : s.axes = .two) {bytes : ByteArray} {width : CellWidth}
    {cells : Cells Point} {side : Nat} (hread : Dense.read bytes width = .ok (cells, side))
    (fileName : String) :
    s.load fileName (FileFormat.gridName width) (.ok bytes) =
      .ok (some (replaced (.plane cells ∅) (gridMetadata s.metadata fileName cells side))) := by
  rw [load, htwo, FileFormat.ofName?_gridName]
  dsimp only
  rw [hread]

/-- A byte string is read as a grid if and only if it has as many whole cells as the points of a
square whose side is a power of two up to the largest side.  Writing what was read gives the bytes
again, with no cell saturated.  A spectrum read from a file of narrow cells, or from one of wide
cells with the largest side, is exported as the same bytes. -/
theorem grid_file_reproduced (bytes : ByteArray) (width : CellWidth) :
    ((∃ read, Dense.read bytes width = .ok read) ↔
        ∃ k, 1 ≤ k ∧ k ≤ 12 ∧ bytes.size = width.bytes * 4 ^ k) ∧
      ∀ cells side, Dense.read bytes width = .ok (cells, side) →
        Dense.write cells side width = bytes ∧
        Dense.saturated cells side width = 0 ∧
        (width = .two ∨ side = 4096 →
          ∀ (s : Spectrum) (fileName : String), s.axes = .two →
            ∃ t, s.load fileName (FileFormat.gridName width) (.ok bytes) = .ok (some t) ∧
              t.fileContents? (FileFormat.gridName width) = some bytes ∧
              ∀ (f f' : Folder) (dir : FolderPath), f.Regular →
                t.writeFile f dir (FileFormat.gridName width) = .ok (some f') →
                f'.read (Folder.within dir (t.fileName (FileFormat.gridName width))) =
                  .ok bytes) := by
  constructor
  · constructor
    · rintro ⟨⟨cells, side⟩, hread⟩
      obtain ⟨⟨k, hlow, hhigh, -, hsize⟩, -⟩ := Dense.read_eq_ok_iff.1 hread
      exact ⟨k, hlow, hhigh, hsize⟩
    · rintro ⟨k, hlow, hhigh, hsize⟩
      refine ⟨(⟨Dense.populated bytes width (2 ^ k), Dense.ascending_populated bytes
        (Dense.size_of_side hhigh)⟩, 2 ^ k), ?_⟩
      exact Dense.read_eq_ok_iff.2 ⟨⟨k, hlow, hhigh, rfl, hsize⟩, rfl⟩
  · intro cells side hread
    obtain ⟨hwrite, hsaturated⟩ := Dense.write_of_read hread
    refine ⟨hwrite, hsaturated, fun hside s fileName htwo => ?_⟩
    obtain ⟨⟨k, -, hhigh, rfl, -⟩, -⟩ := Dense.read_eq_ok_iff.1 hread
    let t := replaced (.plane cells ∅) (gridMetadata s.metadata fileName cells (2 ^ k))
    have hcontents : t.fileContents? (FileFormat.gridName width) = some bytes := by
      have hexport : width.exportSide t.metadata.bits = 2 ^ k :=
        CellWidth.exportSide_log2 hhigh hside
      rw [fileContents?, FileFormat.ofName?_gridName]
      show some (Dense.write cells (width.exportSide t.metadata.bits) width) = some bytes
      rw [hexport, hwrite]
    refine ⟨t, load_grid htwo hread fileName, hcontents, fun f f' dir hf hwritten => ?_⟩
    obtain ⟨contents, hsome, hfile⟩ :=
      read_writeFile hf (FileFormat.no_separator_gridName width) hwritten
    rw [hcontents] at hsome
    rw [hfile, Option.some.inj hsome]

/-- A grid of four narrow cells. -/
def smallGrid : ByteArray := ⟨#[1, 0, 0, 0, 0xFF, 0xFF, 2, 1]⟩

theorem grid_file_reproduced_smallGrid :
    ∃ cells side t f', Dense.read smallGrid .two = .ok (cells, side) ∧
      (blank .two).axes = .two ∧ ({} : Folder).Regular ∧
      (blank .two).load "g.mat" "mat" (.ok smallGrid) = .ok (some t) ∧
      t.writeFile {} [] "mat" = .ok (some f') ∧ f'.read ["g_mat.mat"] = .ok smallGrid := by
  obtain ⟨accepted, reproduced⟩ := grid_file_reproduced smallGrid .two
  obtain ⟨⟨cells, side⟩, hread⟩ := accepted.2 ⟨1, by decide, by decide, by decide⟩
  have hregular : ({} : Folder).Regular := fun e he => nomatch he
  obtain ⟨t, hload, hcontents, hfile⟩ :=
    (reproduced cells side hread).2.2 (.inl rfl) (blank .two) "g.mat" rfl
  have ht : t.metadata.name = "g_mat" := by
    rw [load_grid rfl hread] at hload
    obtain rfl := Option.some.inj (Except.ok.inj hload)
    show nameOfFile "g.mat" = "g_mat"
    decide +kernel
  have hpath : Folder.within [] (t.fileName "mat") = ["g_mat.mat"] := by
    rw [fileName, ht]
    decide +kernel
  have hwritten : t.writeFile {} [] "mat" =
      .ok (some ⟨[(["g_mat.mat"], .file smallGrid)]⟩) := by
    have hcontents : t.fileContents? "mat" = some smallGrid := hcontents
    rw [writeFile, hcontents, hpath]
    rfl
  have hback := hfile {} _ [] hregular hwritten
  exact ⟨cells, side, t, _, hread, rfl, hregular, hload, hwritten, hpath ▸ hback⟩

end Spectrum

end ListMode
