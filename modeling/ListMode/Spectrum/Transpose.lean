import ListMode.Spectrum.Cells

/-!
# Exchanging rows and columns

The counts of a two-axis spectrum with its axes exchanged (`Cells.transpose`).
The entries are dealt out by their columns, a list for each column, and the lists
are joined again.  Each list is ascending since the entries were, so nothing has
to be sorted.  Exchanging reads each count at the point across the diagonal
(`Cells.get?_transpose`), and cells are their own exchange if and only if the two
sides of the diagonal have the same counts stored (`Cells.transpose_eq_self_iff`).
-/

namespace ListMode

/-- The point with its numbers exchanged. -/
def Point.swap (p : Point) : Point := ⟨p.column, p.row⟩

/-! ## Entries by column -/

/-- An entry at the point across the diagonal. -/
def swapEntry (e : Point × Nat) : Point × Nat := (e.1.swap, e.2)

/-- A number that all columns of entries are below. -/
def columnBound (entries : List (Point × Nat)) : Nat :=
  entries.foldl (fun n e => max n (e.1.column.toNat + 1)) 0

/-- The entries with their axes exchanged, a list for each column below `n`. -/
def dealOut (entries : List (Point × Nat)) (n : Nat) : Array (List (Point × Nat)) :=
  entries.foldr (fun e columns => columns.modify e.1.column.toNat (swapEntry e :: ·))
    (Array.replicate n [])

/-- The entries with their axes exchanged, one column after the other. -/
def exchanged (entries : List (Point × Nat)) : List (Point × Nat) :=
  (dealOut entries (columnBound entries)).toList.flatten

theorem lt_foldl_column {e : Point × Nat} : ∀ {entries : List (Point × Nat)} {n : Nat},
    e ∈ entries ∨ e.1.column.toNat < n →
      e.1.column.toNat < entries.foldl (fun n e => max n (e.1.column.toNat + 1)) n
  | [], _, h => by simpa using h
  | d :: ds, n, h => by
    rw [List.foldl_cons]
    refine lt_foldl_column ?_
    rcases h with h | h
    · rcases List.mem_cons.1 h with rfl | h
      · exact .inr (Nat.lt_of_succ_le (Nat.le_max_right _ _))
      · exact .inl h
    · exact .inr (Nat.lt_of_lt_of_le h (Nat.le_max_left _ _))

theorem lt_columnBound {entries : List (Point × Nat)} {e : Point × Nat} (h : e ∈ entries) :
    e.1.column.toNat < columnBound entries :=
  lt_foldl_column (.inl h)

/-- A column holds its entries in their order. -/
theorem getElem?_dealOut (entries : List (Point × Nat)) (n j : Nat) :
    (dealOut entries n)[j]? =
      if j < n then some ((entries.filter (·.1.column.toNat == j)).map swapEntry) else none := by
  unfold dealOut
  induction entries with
  | nil => simp [Array.getElem?_replicate]
  | cons e es ih =>
    rw [List.foldr_cons, Array.getElem?_modify, ih]
    by_cases hj : j < n <;> by_cases he : e.1.column.toNat = j <;> simp [hj, he]

theorem exchanged_eq_flatMap (entries : List (Point × Nat)) :
    exchanged entries = (List.range (columnBound entries)).flatMap fun j =>
      (entries.filter (·.1.column.toNat == j)).map swapEntry := by
  rw [exchanged, List.flatMap_def]
  congr 1
  refine List.ext_getElem? fun j => ?_
  rw [Array.getElem?_toList, getElem?_dealOut, List.getElem?_map]
  by_cases hj : j < columnBound entries <;> simp [hj]

theorem mem_exchanged {entries : List (Point × Nat)} {e : Point × Nat} :
    e ∈ exchanged entries ↔ swapEntry e ∈ entries := by
  simp only [exchanged_eq_flatMap, List.mem_flatMap, List.mem_range, List.mem_map, List.mem_filter,
    beq_iff_eq]
  constructor
  · rintro ⟨j, _, d, ⟨hd, _⟩, rfl⟩
    exact hd
  · intro h
    exact ⟨_, lt_columnBound h, swapEntry e, ⟨h, rfl⟩, rfl⟩

/-- Ascending entries ascend again, by row inside a column and by column from one
to the next. -/
theorem Ascending.exchanged {entries : List (Point × Nat)} (h : Ascending entries) :
    Ascending (ListMode.exchanged entries) := by
  rw [exchanged_eq_flatMap, Ascending, List.pairwise_flatMap]
  constructor
  · intro j _
    rw [List.pairwise_map]
    refine (h.filter _).imp_of_mem fun ha hb hab => ?_
    have ha := (List.mem_filter.1 ha).2
    have hb := (List.mem_filter.1 hb).2
    simp only [beq_iff_eq] at ha hb
    rw [Point.index_lt] at hab ⊢
    simp only [swapEntry, Point.swap]
    omega
  · refine List.pairwise_lt_range.imp fun hij x hx y hy => ?_
    obtain ⟨a, ha, rfl⟩ := List.mem_map.1 hx
    obtain ⟨b, hb, rfl⟩ := List.mem_map.1 hy
    have ha := (List.mem_filter.1 ha).2
    have hb := (List.mem_filter.1 hb).2
    simp only [beq_iff_eq] at ha hb
    rw [Point.index_lt]
    exact .inl (ha ▸ hb ▸ hij)

/-! ## Cells -/

namespace Cells

/-- The cells with rows and columns exchanged. -/
def transpose (c : Cells Point) : Cells Point := ⟨exchanged c.entries, c.ascending.exchanged⟩

/-- A count is read at the point across the diagonal. -/
theorem get?_transpose (c : Cells Point) (p : Point) : c.transpose.get? p = c.get? p.swap := by
  refine Option.ext fun n => ?_
  rw [get?_eq_some_iff, get?_eq_some_iff, transpose, mem_exchanged, swapEntry]

/-- Exchanging changes nothing if and only if the two sides of the diagonal have
the same counts stored. -/
theorem transpose_eq_self_iff {c : Cells Point} :
    c.transpose = c ↔ ∀ p, c.get? p = c.get? p.swap := by
  constructor
  · intro h p
    rw [← get?_transpose, h]
  · exact fun h => eq_of_get? fun p => (get?_transpose c p).trans (h p).symm

end Cells

example : (Cells.ofEntries [((⟨1, 2⟩ : Point), 5), (⟨2, 0⟩, 3)]).transpose.entries =
    [(⟨0, 2⟩, 3), (⟨2, 1⟩, 5)] := by
  decide

end ListMode
