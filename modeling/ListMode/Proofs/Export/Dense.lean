import ListMode.Export.Dense
import ListMode.Proofs.Spectrum.Storage
import ListMode.Proofs.Word.Bytes

/-!
# Dense grids, written and read

The points of a grid stand row by row (`Dense.points`), and the bytes of a grid are
the counts of its points in that order, each held at the largest count of a cell
(`Dense.toList_write`).  A writer only goes from one populated point to the next, so
the induction over the entries says what stands between two of them
(`Dense.toList_writeFrom`).  On the way it counts the entries that do not fit
(`Dense.count_writeFrom`).

A byte string is a grid if and only if its cells are as many as the points of a
usable side, and then the cells read are the points whose bytes are not all zero
(`Dense.read_eq_ok_iff`).  Both directions undo each other: a grid that was written is
read back as what is visible of the cells (`Dense.saturating_round_trip`).
-/

namespace ListMode

open Coordinate (index)

/-! ## Chunks of one length -/

section

variable {α β : Type} {f : α → List β} {width : Nat}

theorem length_flatMap_of_length (h : ∀ a, (f a).length = width) (as : List α) :
    (as.flatMap f).length = width * as.length := by
  induction as with
  | nil => rfl
  | cons a as ih =>
      rw [List.flatMap_cons, List.length_append, h, ih, List.length_cons, Nat.mul_succ]
      exact Nat.add_comm _ _

/-- The chunk of an element is found by its number. -/
theorem take_drop_flatMap (h : ∀ a, (f a).length = width) {as : List α} {i : Nat}
    (hi : i < as.length) : ((as.flatMap f).drop (width * i)).take width = f as[i] := by
  induction as generalizing i with
  | nil => cases hi
  | cons a as ih =>
      rw [List.flatMap_cons]
      cases i with
      | zero => rw [Nat.mul_zero, List.drop_zero, List.take_append_of_le_length (by rw [h]),
          List.take_of_length_le (by rw [h]), List.getElem_cons_zero]
      | succ i =>
          have hskip : width * (i + 1) = (f a).length + width * i := by
            rw [h]
            exact Nat.add_comm _ _
          rw [hskip, List.drop_length_add_append]
          exact ih (Nat.lt_of_succ_lt_succ hi)

/-- A list is its chunks, one after the other. -/
theorem flatMap_take_drop (bs : List β) (width n : Nat) :
    ((List.range n).flatMap fun i => (bs.drop (width * i)).take width) = bs.take (width * n) := by
  induction n with
  | zero => rfl
  | succ n ih =>
      rw [List.range_succ, List.flatMap_append, ih, List.flatMap_singleton, Nat.mul_succ,
        List.take_add]

end

namespace Dense

/-! ## The points of a grid -/

/-- The points of a grid, row by row. -/
def points (side : Nat) : List Point :=
  (List.range side).flatMap fun i =>
    (List.range side).map fun j => ⟨UInt16.ofNat i, UInt16.ofNat j⟩

theorem points_eq (side : Nat) : points side = (List.range (side * side)).map (pointAt side) := by
  have rows : ∀ n, ((List.range n).flatMap fun i =>
      (List.range side).map fun j => (⟨UInt16.ofNat i, UInt16.ofNat j⟩ : Point)) =
        (List.range (n * side)).map (pointAt side) := by
    intro n
    induction n with
    | zero => simp
    | succ n ih =>
        rw [List.range_succ, List.flatMap_append, ih, List.flatMap_singleton, Nat.succ_mul,
          List.range_add, List.map_append, List.map_map]
        congr 1
        refine List.map_congr_left fun j hj => ?_
        have hj := List.mem_range.1 hj
        have hrow : (n * side + j) / side = n := by
          rw [Nat.mul_comm, Nat.mul_add_div (by omega), Nat.div_eq_of_lt hj, Nat.add_zero]
        have hcolumn : (n * side + j) % side = j := by
          rw [Nat.mul_comm, Nat.mul_add_mod, Nat.mod_eq_of_lt hj]
        rw [Function.comp_apply, pointAt, hrow, hcolumn]
  exact rows side

variable {side : Nat} {width : CellWidth}

theorem inGrid_iff {p : Point} :
    inGrid side p = true ↔ p.row.toNat < side ∧ p.column.toNat < side := by
  rw [inGrid, Bool.and_eq_true, decide_eq_true_eq, decide_eq_true_eq]

theorem place_lt {p : Point} (h : inGrid side p = true) : place side p < side * side := by
  obtain ⟨hrow, hcolumn⟩ := inGrid_iff.1 h
  calc place side p < p.row.toNat * side + side := Nat.add_lt_add_left hcolumn _
    _ = (p.row.toNat + 1) * side := (Nat.succ_mul _ _).symm
    _ ≤ side * side := Nat.mul_le_mul_right side hrow

theorem pointAt_place {p : Point} (h : inGrid side p = true) : pointAt side (place side p) = p := by
  obtain ⟨hrow, hcolumn⟩ := inGrid_iff.1 h
  have hdiv : place side p / side = p.row.toNat := by
    rw [place, Nat.mul_comm, Nat.mul_add_div (by omega), Nat.div_eq_of_lt hcolumn, Nat.add_zero]
  have hmod : place side p % side = p.column.toNat := by
    rw [place, Nat.mul_comm, Nat.mul_add_mod, Nat.mod_eq_of_lt hcolumn]
  rw [pointAt, hdiv, hmod, UInt16.ofNat_toNat, UInt16.ofNat_toNat]

/-- The numbers of the point that has a number in the grid. -/
theorem toNat_pointAt (hside : side ≤ UInt16.size) {i : Nat} (hi : i < side * side) :
    (pointAt side i).row.toNat = i / side ∧ (pointAt side i).column.toNat = i % side := by
  have hpos : 0 < side := Nat.pos_of_mul_pos_right (Nat.zero_lt_of_lt hi)
  have hrow : i / side < side := Nat.div_lt_of_lt_mul hi
  have hcolumn : i % side < side := Nat.mod_lt i hpos
  exact ⟨UInt16.toNat_ofNat_of_lt' (Nat.lt_of_lt_of_le hrow hside),
    UInt16.toNat_ofNat_of_lt' (Nat.lt_of_lt_of_le hcolumn hside)⟩

theorem inGrid_pointAt (hside : side ≤ UInt16.size) {i : Nat} (hi : i < side * side) :
    inGrid side (pointAt side i) = true := by
  obtain ⟨hrow, hcolumn⟩ := toNat_pointAt hside hi
  rw [inGrid_iff, hrow, hcolumn]
  exact ⟨Nat.div_lt_of_lt_mul hi, Nat.mod_lt i (Nat.pos_of_mul_pos_right (Nat.zero_lt_of_lt hi))⟩

theorem place_pointAt (hside : side ≤ UInt16.size) {i : Nat} (hi : i < side * side) :
    place side (pointAt side i) = i := by
  obtain ⟨hrow, hcolumn⟩ := toNat_pointAt hside hi
  rw [place, hrow, hcolumn, Nat.mul_comm]
  exact Nat.div_add_mod i side

/-- The points of a grid are counted in the order of all points. -/
theorem place_lt_place {p q : Point} (hp : inGrid side p = true) (h : index p < index q) :
    place side p < place side q := by
  obtain ⟨-, hcolumn⟩ := inGrid_iff.1 hp
  rcases Point.index_lt.1 h with hrow | ⟨hrow, hlt⟩
  · calc place side p < p.row.toNat * side + side := Nat.add_lt_add_left hcolumn _
      _ = (p.row.toNat + 1) * side := (Nat.succ_mul _ _).symm
      _ ≤ q.row.toNat * side := Nat.mul_le_mul_right side hrow
      _ ≤ place side q := Nat.le_add_right _ _
  · rw [place, place, hrow]
    exact Nat.add_lt_add_left hlt _

theorem index_pointAt_lt (hside : side ≤ UInt16.size) {i j : Nat} (hij : i < j)
    (hj : j < side * side) : index (pointAt side i) < index (pointAt side j) := by
  have hi := Nat.lt_trans hij hj
  rcases Nat.lt_trichotomy (index (pointAt side i)) (index (pointAt side j)) with h | h | h
  · exact h
  · have hsame := congrArg (place side) (Coordinate.index_inj h)
    rw [place_pointAt hside hi, place_pointAt hside hj] at hsame
    exact absurd hsame (Nat.ne_of_lt hij)
  · have hlt := place_lt_place (inGrid_pointAt hside hj) h
    rw [place_pointAt hside hi, place_pointAt hside hj] at hlt
    exact absurd hlt (Nat.lt_asymm hij)

theorem mem_points (hside : side ≤ UInt16.size) {p : Point} :
    p ∈ points side ↔ inGrid side p = true := by
  rw [points_eq, List.mem_map]
  constructor
  · rintro ⟨i, hi, rfl⟩
    exact inGrid_pointAt hside (List.mem_range.1 hi)
  · intro h
    exact ⟨place side p, List.mem_range.2 (place_lt h), pointAt_place h⟩

theorem nodup_points (hside : side ≤ UInt16.size) : (points side).Nodup := by
  rw [points_eq]
  refine List.Nodup.map_on (fun i hi j hj h => ?_) List.nodup_range
  have hplaces := congrArg (place side) h
  rwa [place_pointAt hside (List.mem_range.1 hi), place_pointAt hside (List.mem_range.1 hj)]
    at hplaces

/-! ## Writing -/

/-- The bytes of counts in the cells of a grid. -/
def cellBytes (width : CellWidth) (counts : List Nat) : List UInt8 :=
  counts.flatMap fun n => littleEndian width.bytes (min n width.limit)

theorem cellBytes_append (ns ms : List Nat) :
    cellBytes width (ns ++ ms) = cellBytes width ns ++ cellBytes width ms :=
  List.flatMap_append

theorem toList_zeros (n : Nat) : (zeros n).data.toList = List.replicate n 0 := by
  fun_induction zeros n with
  | case1 => rfl
  | case2 n hn half heven ih =>
      rw [ByteArray.data_append, Array.toList_append, ih, List.replicate_append_replicate]
      congr 1
      omega
  | case3 n hn half hodd ih =>
      rw [ByteArray.data_push, Array.toList_push, ByteArray.data_append, Array.toList_append, ih,
        List.replicate_append_replicate, ← List.replicate_succ']
      congr 1
      omega

/-- Cells without a count are zeros. -/
theorem cellBytes_zeros (n : Nat) :
    cellBytes width (List.replicate n 0) = List.replicate (n * width.bytes) 0 := by
  have hcell : littleEndian width.bytes (min 0 width.limit) = List.replicate width.bytes 0 := by
    rw [Nat.zero_min]
    cases width with
    | two => rfl
    | four => rfl
  rw [cellBytes, List.flatMap_replicate, hcell, List.flatten_replicate_replicate]

theorem toList_gap (n : Nat) :
    (zeros (n * width.bytes)).data.toList = cellBytes width (List.replicate n 0) := by
  rw [toList_zeros, cellBytes_zeros]

/-- The entries are those of the points with a count, among the points numbered from `written`
up to `size`. -/
structure Lists (side size : Nat) (count : Nat → Nat) (written : Nat)
    (entries : List (Point × Nat)) : Prop where
  ascending : entries.Pairwise fun a b => place side a.1 < place side b.1
  bounds : ∀ e ∈ entries, written ≤ place side e.1 ∧ place side e.1 < size
  count_eq : ∀ e ∈ entries, count (place side e.1) = e.2
  blank : ∀ i, written ≤ i → i < size → (∀ e ∈ entries, place side e.1 ≠ i) → count i = 0

section

variable {size written : Nat} {count : Nat → Nat} {p : Point} {n : Nat}
  {entries rest : List (Point × Nat)}

theorem map_blank {start length : Nat} (h : ∀ i, start ≤ i → i < start + length → count i = 0) :
    (List.range' start length).map count = List.replicate length 0 := by
  refine List.eq_replicate_iff.2 ⟨by simp, fun n hn => ?_⟩
  obtain ⟨i, hi, rfl⟩ := List.mem_map.1 hn
  obtain ⟨hlow, hhigh⟩ := List.mem_range'_1.1 hi
  exact h i hlow hhigh

theorem Lists.place_mem (h : Lists side size count written ((p, n) :: rest)) :
    written ≤ place side p ∧ place side p < size :=
  h.bounds (p, n) List.mem_cons_self

/-- There is nothing in front of the first entry. -/
theorem Lists.gap (h : Lists side size count written ((p, n) :: rest)) :
    (List.range' written (place side p - written)).map count =
      List.replicate (place side p - written) 0 := by
  obtain ⟨hlow, hhigh⟩ := h.place_mem
  refine map_blank fun i hi hlt => h.blank i hi (by omega) fun e he => ?_
  rcases List.mem_cons.1 he with rfl | he
  · dsimp only
    omega
  · have hnext : place side p < place side e.1 := (List.pairwise_cons.1 h.ascending).1 e he
    omega

/-- The entries left are those of the points left. -/
theorem Lists.tail (h : Lists side size count written ((p, n) :: rest)) :
    Lists side size count (place side p + 1) rest := by
  obtain ⟨hlow, hhigh⟩ := h.place_mem
  obtain ⟨hnext, ascending⟩ := List.pairwise_cons.1 h.ascending
  refine ⟨ascending, fun e he => ?_, fun e he => ?_, fun i hi hsize habsent => ?_⟩
  · exact ⟨hnext e he, (h.bounds e (List.mem_cons_of_mem _ he)).2⟩
  · exact h.count_eq e (List.mem_cons_of_mem _ he)
  · refine h.blank i (by omega) hsize (List.forall_mem_cons.2 ⟨?_, habsent⟩)
    dsimp only
    omega

/-- What is written for the entries of points are the counts of all points from there on. -/
theorem toList_writeFrom : ∀ {written : Nat} (out : ByteArray) (large : Nat), written ≤ size →
    Lists side size count written entries →
    (writeFrom width side size out written large entries).1.data.toList =
      out.data.toList ++ cellBytes width ((List.range' written (size - written)).map count) := by
  induction entries with
  | nil =>
      intro written out large hwritten h
      have hblank : (List.range' written (size - written)).map count =
          List.replicate (size - written) 0 :=
        map_blank fun i hi hlt => h.blank i hi (by omega) fun e he => nomatch he
      rw [writeFrom, ByteArray.data_append, Array.toList_append, toList_gap, hblank]
  | cons e rest ih =>
      intro written out large hwritten h
      obtain ⟨p, n⟩ := e
      obtain ⟨hlow, hhigh⟩ := h.place_mem
      have hsplit : List.range' written (size - written) =
          List.range' written (place side p - written) ++
            place side p :: List.range' (place side p + 1) (size - (place side p + 1)) := by
        have hlength : size - written =
            (place side p - written) + (1 + (size - (place side p + 1))) := by omega
        have hstart : written + 1 * (place side p - written) = place side p := by omega
        rw [hlength, ← List.range'_append, hstart, ← List.range'_append]
        rfl
      have hcell : (cell width n).data.toList = cellBytes width [count (place side p)] := by
        rw [h.count_eq (p, n) List.mem_cons_self, cellBytes, List.flatMap_singleton]
        rfl
      rw [writeFrom, ih _ _ hhigh h.tail, hsplit, List.map_append, List.map_cons, h.gap,
        cellBytes_append, ByteArray.data_append, Array.toList_append, ByteArray.data_append,
        Array.toList_append, toList_gap, hcell, List.append_assoc, List.append_assoc,
        ← cellBytes_append]
      rfl

end

theorem mem_visible {cells : Cells Point} {e : Point × Nat} :
    e ∈ visible side cells ↔ e ∈ cells.entries ∧ inGrid side e.1 = true :=
  List.mem_filter

theorem lists_visible (cells : Cells Point) (hside : side ≤ UInt16.size) :
    Lists side (side * side) (fun i => cells.count (pointAt side i)) 0 (visible side cells) := by
  constructor
  · refine (List.Pairwise.filter _ cells.ascending).imp_of_mem fun ha _ hab => ?_
    exact place_lt_place (mem_visible.1 ha).2 hab
  · exact fun e he => ⟨Nat.zero_le _, place_lt (mem_visible.1 he).2⟩
  · intro e he
    rw [pointAt_place (mem_visible.1 he).2]
    exact Cells.count_of_mem (mem_visible.1 he).1
  · intro i _ hi habsent
    refine Nat.eq_zero_of_not_pos fun hpos => ?_
    have hmem := mem_visible.2 ⟨Cells.mem_of_count_pos hpos, inGrid_pointAt hside hi⟩
    exact habsent _ hmem (place_pointAt hside hi)

/-- The bytes of a grid are the counts of its points, row by row. -/
theorem toList_write (cells : Cells Point) (hside : side ≤ UInt16.size) :
    (write cells side width).data.toList = cellBytes width ((points side).map cells.count) := by
  rw [write, writeCounting, toList_writeFrom _ _ (Nat.zero_le _) (lists_visible cells hside),
    points_eq, List.map_map, Nat.sub_zero, ← List.range_eq_range']
  rfl

theorem length_cell (n : Nat) :
    (littleEndian width.bytes (min n width.limit)).length = width.bytes :=
  length_littleEndian _ _

theorem size_write (cells : Cells Point) (hside : side ≤ UInt16.size) :
    (write cells side width).size = width.bytes * (side * side) := by
  have hlength : (cellBytes width ((points side).map cells.count)).length =
      width.bytes * ((points side).map cells.count).length :=
    length_flatMap_of_length length_cell _
  rw [← toList_write cells hside, points_eq] at hlength
  simpa using hlength

/-! ## Reading -/

theorem limit_succ (width : CellWidth) : width.limit + 1 = 256 ^ width.bytes := by
  cases width with
  | two => rfl
  | four => rfl

/-- The bytes of the cell with a number. -/
def chunk (bytes : ByteArray) (width : CellWidth) (i : Nat) : List UInt8 :=
  (bytes.data.toList.drop (width.bytes * i)).take width.bytes

theorem length_chunk {bytes : ByteArray} {i : Nat} (h : width.bytes * (i + 1) ≤ bytes.size) :
    (chunk bytes width i).length = width.bytes := by
  have hlength : bytes.data.toList.length = bytes.size := rfl
  rw [Nat.mul_succ] at h
  rw [chunk, List.length_take, List.length_drop, hlength]
  omega

theorem ofLittleEndian_take_drop {bytes : ByteArray} {k : Nat} (hk : k < bytes.size) (n : Nat) :
    ofLittleEndian ((bytes.data.toList.drop k).take (n + 1)) =
      byteAt bytes k + 256 * ofLittleEndian ((bytes.data.toList.drop (k + 1)).take n) := by
  have hlength : k < bytes.data.toList.length := hk
  rw [List.drop_eq_getElem_cons hlength, List.take_succ_cons, ofLittleEndian, byteAt, dif_pos hk]
  rfl

/-- The count of a cell is the number its bytes store. -/
theorem countAt_eq {bytes : ByteArray} {i : Nat} (h : width.bytes * (i + 1) ≤ bytes.size) :
    countAt bytes width i = ofLittleEndian (chunk bytes width i) := by
  cases width with
  | two =>
      have h : 2 * (i + 1) ≤ bytes.size := h
      rw [chunk, CellWidth.bytes, ofLittleEndian_take_drop (by omega),
        ofLittleEndian_take_drop (by omega)]
      rfl
  | four =>
      have h : 4 * (i + 1) ≤ bytes.size := h
      rw [chunk, CellWidth.bytes, ofLittleEndian_take_drop (by omega),
        ofLittleEndian_take_drop (by omega), ofLittleEndian_take_drop (by omega),
        ofLittleEndian_take_drop (by omega)]
      rfl

theorem cell_fits {bytes : ByteArray} {n i : Nat} (hsize : bytes.size = width.bytes * n)
    (hi : i < n) : width.bytes * (i + 1) ≤ bytes.size :=
  hsize ▸ Nat.mul_le_mul_left _ hi

theorem countAt_le {bytes : ByteArray} {n i : Nat} (hsize : bytes.size = width.bytes * n)
    (hi : i < n) : countAt bytes width i ≤ width.limit := by
  have hlt := ofLittleEndian_lt (chunk bytes width i)
  rw [length_chunk (cell_fits hsize hi), ← limit_succ] at hlt
  rw [countAt_eq (cell_fits hsize hi)]
  exact Nat.le_of_lt_succ hlt

/-- A byte string of whole cells is the bytes of their counts. -/
theorem cellBytes_countAt {bytes : ByteArray} {n : Nat} (hsize : bytes.size = width.bytes * n) :
    cellBytes width ((List.range n).map (countAt bytes width)) = bytes.data.toList := by
  have hlength : bytes.data.toList.length = width.bytes * n := hsize
  have hcells : ∀ i ∈ List.range n,
      littleEndian width.bytes (min (countAt bytes width i) width.limit) =
        (bytes.data.toList.drop (width.bytes * i)).take width.bytes := by
    intro i hi
    have hi := List.mem_range.1 hi
    have hbytes := littleEndian_ofLittleEndian (chunk bytes width i)
    rw [length_chunk (cell_fits hsize hi)] at hbytes
    rw [Nat.min_eq_left (countAt_le hsize hi), countAt_eq (cell_fits hsize hi), hbytes, chunk]
  rw [cellBytes, List.flatMap_map, List.flatMap_congr hcells, flatMap_take_drop,
    List.take_of_length_le (Nat.le_of_eq hlength)]

/-- The counts in a grid that was written. -/
theorem countAt_write (cells : Cells Point) (hside : side ≤ UInt16.size) {i : Nat}
    (hi : i < side * side) :
    countAt (write cells side width) width i =
      min (cells.count (pointAt side i)) width.limit := by
  have hpoints : ((points side).map cells.count).length = side * side := by simp [points_eq]
  have hlt : min (cells.count (pointAt side i)) width.limit < 256 ^ width.bytes := by
    rw [← limit_succ]
    exact Nat.lt_succ_of_le (Nat.min_le_right _ _)
  rw [countAt_eq (cell_fits (size_write cells hside) hi), chunk, toList_write cells hside,
    cellBytes, take_drop_flatMap length_cell (by rw [hpoints]; exact hi),
    ofLittleEndian_littleEndian, Nat.mod_eq_of_lt]
  · simp [points_eq]
  · simpa [points_eq] using hlt

/-- The populated cells of a grid, in the order of their numbers. -/
def populated (bytes : ByteArray) (width : CellWidth) (side : Nat) : List (Point × Nat) :=
  ((List.range (side * side)).map fun i => (pointAt side i, countAt bytes width i)).filter
    fun e => e.2 ≠ 0

theorem populatedBelow_eq (bytes : ByteArray) (n : Nat) : ∀ later,
    populatedBelow bytes width side n later =
      ((List.range n).map fun i => (pointAt side i, countAt bytes width i)).filter
        (fun e => e.2 ≠ 0) ++ later := by
  induction n with
  | zero => exact fun _ => rfl
  | succ n ih =>
      intro later
      rw [populatedBelow, ih, List.range_succ, List.map_append, List.filter_append,
        List.append_assoc]
      congr 1
      by_cases hzero : countAt bytes width n = 0
      · simp [hzero]
      · simp [hzero]

theorem ascending_populated (bytes : ByteArray) (hside : side ≤ UInt16.size) :
    Ascending (populated bytes width side) := by
  refine List.Pairwise.filter _ (List.pairwise_map.2 ?_)
  refine List.pairwise_lt_range.imp_of_mem fun _ hj hij => ?_
  exact index_pointAt_lt hside hij (List.mem_range.1 hj)

theorem mem_populated {bytes : ByteArray} (hside : side ≤ UInt16.size) {p : Point} {n : Nat} :
    (p, n) ∈ populated bytes width side ↔
      inGrid side p = true ∧ countAt bytes width (place side p) = n ∧ n ≠ 0 := by
  rw [populated, List.mem_filter, List.mem_map, decide_eq_true_eq]
  constructor
  · rintro ⟨⟨i, hi, heq⟩, hn⟩
    have hi := List.mem_range.1 hi
    obtain ⟨rfl, rfl⟩ := Prod.mk.inj heq
    exact ⟨inGrid_pointAt hside hi, by rw [place_pointAt hside hi], hn⟩
  · rintro ⟨hp, rfl, hn⟩
    exact ⟨⟨place side p, List.mem_range.2 (place_lt hp), by rw [pointAt_place hp]⟩, hn⟩

/-- The sides of grids are the powers of two up to the largest side. -/
theorem mem_sides {side : Nat} : side ∈ sides ↔ ∃ k, 1 ≤ k ∧ k ≤ 12 ∧ side = 2 ^ k := by
  simp only [sides, List.mem_map, List.mem_range, Nat.one_shiftLeft]
  constructor
  · rintro ⟨k, hk, rfl⟩
    exact ⟨k + 1, by omega, by omega, rfl⟩
  · rintro ⟨k, hlow, hhigh, rfl⟩
    exact ⟨k - 1, by omega, by rw [Nat.sub_add_cancel hlow]⟩

theorem side?_eq_some_iff {cells side : Nat} :
    side? cells = some side ↔ ∃ k, 1 ≤ k ∧ k ≤ 12 ∧ side = 2 ^ k ∧ cells = 4 ^ k := by
  have square : ∀ {s}, side? cells = some s → s * s = cells := fun h => by
    simpa using List.find?_some h
  have power : ∀ k, 2 ^ k * 2 ^ k = 4 ^ k := fun k => (Nat.mul_pow 2 2 k).symm
  constructor
  · intro h
    obtain ⟨k, hlow, hhigh, rfl⟩ := mem_sides.1 (List.mem_of_find?_eq_some h)
    exact ⟨k, hlow, hhigh, rfl, (square h).symm.trans (power k)⟩
  · rintro ⟨k, hlow, hhigh, rfl, rfl⟩
    have there : 2 ^ k ∈ sides := mem_sides.2 ⟨k, hlow, hhigh, rfl⟩
    obtain ⟨s, hs⟩ := Option.isSome_iff_exists.1
      (List.find?_isSome (p := fun s => s * s == 4 ^ k).2 ⟨2 ^ k, there, by simp [power]⟩)
    have same : s * s = 2 ^ k * 2 ^ k := (square hs).trans (power k).symm
    exact hs.trans (congrArg some (Nat.mul_self_inj.1 same))

theorem size_of_side {k : Nat} (hk : k ≤ 12) : 2 ^ k ≤ UInt16.size :=
  calc 2 ^ k ≤ 2 ^ 12 := Nat.pow_le_pow_right (by decide) hk
    _ ≤ UInt16.size := by decide

theorem entries_ofEntries_populatedBelow (bytes : ByteArray) (width : CellWidth)
    (hside : side ≤ UInt16.size) :
    (Cells.ofEntries (populatedBelow bytes width side (side * side) [])).entries =
      populated bytes width side := by
  rw [populatedBelow_eq, List.append_nil]
  exact Cells.entries_ofEntries (ascending_populated bytes hside)

/-- A byte string is a grid if and only if it has as many whole cells as a usable side has points,
and then its populated cells are read. -/
theorem read_eq_ok_iff {bytes : ByteArray} {cells : Cells Point} :
    read bytes width = .ok (cells, side) ↔
      (∃ k, 1 ≤ k ∧ k ≤ 12 ∧ side = 2 ^ k ∧ bytes.size = width.bytes * 4 ^ k) ∧
        cells.entries = populated bytes width side := by
  have hbytes : 0 < width.bytes := by
    cases width with
    | two => decide
    | four => decide
  unfold read
  split
  · next hpartial =>
    refine ⟨fun h => (nomatch h), ?_⟩
    rintro ⟨⟨k, -, -, -, hsize⟩, -⟩
    exact absurd (by rw [hsize, Nat.mul_mod_right]) hpartial
  · next hwhole =>
    have hsize : width.bytes * (bytes.size / width.bytes) = bytes.size :=
      Nat.mul_div_cancel' (Nat.dvd_of_mod_eq_zero (Decidable.not_not.1 hwhole))
    dsimp only
    cases hside : side? (bytes.size / width.bytes) with
    | none =>
        refine ⟨fun h => (nomatch h), ?_⟩
        rintro ⟨⟨k, hlow, hhigh, rfl, hk⟩, -⟩
        have hcells : bytes.size / width.bytes = 4 ^ k := by
          rw [hk, Nat.mul_div_cancel_left _ hbytes]
        rw [side?_eq_some_iff.2 ⟨k, hlow, hhigh, rfl, hcells⟩] at hside
        cases hside
    | some s =>
        obtain ⟨k, hlow, hhigh, rfl, hk⟩ := side?_eq_some_iff.1 hside
        have hcells : bytes.size / width.bytes = 2 ^ k * 2 ^ k := hk.trans (Nat.mul_pow 2 2 k)
        have hentries := entries_ofEntries_populatedBelow bytes width (size_of_side hhigh)
        dsimp only
        constructor
        · intro h
          obtain ⟨rfl, rfl⟩ := Prod.mk.inj (Except.ok.inj h)
          rw [hcells]
          exact ⟨⟨k, hlow, hhigh, rfl, by rw [← hk, hsize]⟩, hentries⟩
        · rintro ⟨⟨l, -, -, rfl, hl⟩, hread⟩
          have hkl : 4 ^ k = 4 ^ l := by
            rw [← hk, hl, Nat.mul_div_cancel_left _ hbytes]
          obtain rfl := Nat.pow_right_injective (Nat.le_refl 2 |>.trans (by decide)) hkl
          rw [hcells, Cells.entries_inj.1 (hentries.trans hread.symm)]

/-- The cells of a grid lie within its last row and column. -/
theorem within_read {bytes : ByteArray} {cells : Cells Point}
    (h : read bytes width = .ok (cells, side)) :
    (Counts.plane cells ∅).Within (UInt16.ofNat (side - 1)) := by
  obtain ⟨⟨k, -, hhigh, rfl, -⟩, hentries⟩ := read_eq_ok_iff.1 h
  have hside : 2 ^ k ≤ UInt16.size := size_of_side hhigh
  have last : (UInt16.ofNat (2 ^ k - 1)).toNat = 2 ^ k - 1 :=
    UInt16.toNat_ofNat_of_lt' (Nat.lt_of_lt_of_le (Nat.sub_one_lt (Nat.two_pow_pos k).ne') hside)
  have small : ∀ b : Bin, b.toNat < 2 ^ k → b ≤ UInt16.ofNat (2 ^ k - 1) := by
    intro b hb
    rw [UInt16.le_iff_toNat_le, last]
    exact Nat.le_sub_one_of_lt hb
  refine Counts.within_plane.2 fun e he => ?_
  rw [hentries] at he
  obtain ⟨hrow, hcolumn⟩ := inGrid_iff.1 ((mem_populated hside).1 he).1
  exact ⟨small _ hrow, small _ hcolumn⟩

/-! ## Counts that do not fit -/

/-- A writer counts each entry that does not fit, whatever it counted before. -/
theorem count_writeFrom (entries : List (Point × Nat)) :
    ∀ (size : Nat) (out : ByteArray) (written large : Nat),
      (writeFrom width side size out written large entries).2 =
        large + entries.countP fun e => width.limit < e.2 := by
  induction entries with
  | nil => exact fun _ _ _ _ => rfl
  | cons e rest ih =>
      intro size out written large
      rw [writeFrom, ih, List.countP_cons]
      simp only [decide_eq_true_eq]
      split
      · rw [Nat.add_right_comm, Nat.add_assoc]
      · rw [Nat.add_zero]

theorem saturated_eq_countP (cells : Cells Point) :
    saturated cells side width =
      (visible side cells).countP fun e => width.limit < e.2 :=
  (count_writeFrom _ _ _ _ _).trans (Nat.zero_add _)

/-- The saturated cells are counted at the points of the grid. -/
theorem saturated_eq (cells : Cells Point) (hside : side ≤ UInt16.size) :
    saturated cells side width = (points side).countP fun p => width.limit < cells.count p := by
  have hdistinct : ((visible side cells).map Prod.fst).Nodup := by
    refine List.pairwise_map.2 (List.Pairwise.filter _ (cells.ascending.imp fun hlt heq => ?_))
    rw [heq] at hlt
    exact Nat.lt_irrefl _ hlt
  have hcount : ∀ e ∈ visible side cells, cells.count e.1 = e.2 := fun e he =>
    Cells.count_of_mem (mem_visible.1 he).1
  have hperm : (((visible side cells).map Prod.fst).filter
      fun p => width.limit < cells.count p).Perm
        ((points side).filter fun p => width.limit < cells.count p) := by
    refine (List.perm_ext_iff_of_nodup (hdistinct.filter _)
      ((nodup_points hside).filter _)).2 fun p => ?_
    rw [List.mem_filter, List.mem_filter, mem_points hside, decide_eq_true_eq]
    constructor
    · rintro ⟨hp, hlarge⟩
      obtain ⟨e, he, rfl⟩ := List.mem_map.1 hp
      exact ⟨(mem_visible.1 he).2, hlarge⟩
    · rintro ⟨hp, hlarge⟩
      refine ⟨List.mem_map.2 ⟨(p, cells.count p), mem_visible.2 ⟨?_, hp⟩, rfl⟩, hlarge⟩
      exact Cells.mem_of_count_pos (Nat.zero_lt_of_lt hlarge)
  rw [saturated_eq_countP, List.countP_eq_length_filter, List.countP_eq_length_filter,
    ← hperm.length_eq, List.filter_map, List.length_map]
  congr 1
  refine List.filter_congr fun e he => ?_
  rw [Function.comp_apply, hcount e he]

/-- The entries that a grid shows: those in the grid with a count, as far as it fits. -/
def shown (cells : Cells Point) (side largest : Nat) : List (Point × Nat) :=
  (cells.entries.filter fun e => e.2 ≠ 0 ∧ e.1.row.toNat < side ∧ e.1.column.toNat < side).map
    fun e => (e.1, min e.2 largest)

theorem populated_write (cells : Cells Point) (hside : side ≤ UInt16.size) :
    populated (write cells side width) width side = shown cells side width.limit := by
  have hlimit : 0 < width.limit := by
    cases width with
    | two => decide
    | four => decide
  refine (ascending_populated _ hside).eq_of_mem_iff ?_ fun (p, n) => ?_
  · exact List.pairwise_map.2 (List.Pairwise.filter _ cells.ascending)
  · rw [mem_populated hside, shown, List.mem_map]
    constructor
    · rintro ⟨hp, rfl, hn⟩
      rw [countAt_write cells hside (place_lt hp), pointAt_place hp] at hn ⊢
      have hpos : 0 < cells.count p := by omega
      exact ⟨(p, cells.count p), List.mem_filter.2 ⟨Cells.mem_of_count_pos hpos,
        decide_eq_true ⟨Nat.ne_of_gt hpos, inGrid_iff.1 hp⟩⟩, rfl⟩
    · rintro ⟨e, he, heq⟩
      obtain ⟨rfl, rfl⟩ := Prod.mk.inj heq
      obtain ⟨hmem, hvisible⟩ := List.mem_filter.1 he
      obtain ⟨hn, hgrid⟩ := of_decide_eq_true hvisible
      have hp := inGrid_iff.2 hgrid
      rw [countAt_write cells hside (place_lt hp), pointAt_place hp, Cells.count_of_mem hmem]
      exact ⟨hp, rfl, by omega⟩

/-! ## Round trips -/

/-- A grid that was written has a cell for each of its points, row by row.  It is read back as the
cells with a count that lie in the grid, where a count that does not fit is the largest one that
does; the number of those is the number of saturated cells. -/
theorem saturating_round_trip (cells : Cells Point) (width : CellWidth) {k : Nat} (hlow : 1 ≤ k)
    (hhigh : k ≤ 12) :
    let side := 2 ^ k
    let largest := 256 ^ width.bytes - 1
    (write cells side width).size = side * side * width.bytes ∧
      (write cells side width).data.toList = ((points side).flatMap fun p =>
        littleEndian width.bytes (min (cells.count p) largest)) ∧
      saturated cells side width = ((points side).countP fun p => largest < cells.count p) ∧
      ∃ read, Dense.read (write cells side width) width = .ok (read, side) ∧
        read.entries = (cells.entries.filter fun e =>
          e.2 ≠ 0 ∧ e.1.row.toNat < side ∧ e.1.column.toNat < side).map
            fun e => (e.1, min e.2 largest) := by
  intro side largest
  have hside : side ≤ UInt16.size := size_of_side hhigh
  have hlargest : largest = width.limit := by
    show 256 ^ width.bytes - 1 = width.limit
    rw [← limit_succ, Nat.add_sub_cancel]
  have hsize : (write cells side width).size = width.bytes * 4 ^ k := by
    rw [size_write cells hside, ← Nat.mul_pow]
  rw [hlargest]
  refine ⟨?_, ?_, saturated_eq cells hside, ?_⟩
  · rw [size_write cells hside, Nat.mul_comm]
  · rw [toList_write cells hside, cellBytes, List.flatMap_map]
  · refine ⟨⟨populated _ width side, ascending_populated _ hside⟩, ?_, populated_write cells hside⟩
    exact read_eq_ok_iff.2 ⟨⟨k, hlow, hhigh, rfl, hsize⟩, rfl⟩

/-- A count that does not fit two bytes, a stored zero, a point outside the smallest grid, and one
at the end of it. -/
def sampleCells : Cells Point :=
  .ofEntries [(⟨0, 0⟩, 70000), (⟨0, 1⟩, 0), (⟨0, 5⟩, 9), (⟨1, 1⟩, 3)]

theorem saturating_round_trip_sampleCells :
    1 ≤ 1 ∧ 1 ≤ 12 ∧
      (write sampleCells 2 .two).data.toList = [0xFF, 0xFF, 0, 0, 0, 0, 3, 0] ∧
      saturated sampleCells 2 .two = 1 ∧
      ∃ read, Dense.read (write sampleCells 2 .two) .two = .ok (read, 2) ∧
        read.entries = [(⟨0, 0⟩, 65535), (⟨1, 1⟩, 3)] := by
  have hlow : 1 ≤ 1 := Nat.le_refl 1
  have hhigh : 1 ≤ 12 := by decide
  obtain ⟨-, hbytes, hsaturated, read, hread, hentries⟩ :=
    saturating_round_trip sampleCells .two hlow hhigh
  refine ⟨hlow, hhigh, hbytes.trans ?_, hsaturated.trans ?_, read, hread, hentries.trans ?_⟩
  · decide +kernel
  · decide +kernel
  · decide +kernel

/-- The count of a point of a grid that was read is the number its bytes store. -/
theorem count_read {bytes : ByteArray} {cells : Cells Point} (hside : side ≤ UInt16.size)
    (hentries : cells.entries = populated bytes width side) {i : Nat} (hi : i < side * side) :
    cells.count (pointAt side i) = countAt bytes width i := by
  have hmem : ∀ n, (pointAt side i, n) ∈ cells.entries ↔ countAt bytes width i = n ∧ n ≠ 0 := by
    intro n
    rw [hentries, mem_populated hside, place_pointAt hside hi]
    exact and_iff_right (inGrid_pointAt hside hi)
  rcases Nat.eq_zero_or_pos (countAt bytes width i) with hzero | hpos
  · rw [hzero]
    refine Nat.eq_zero_of_not_pos fun hcount => ?_
    obtain ⟨hsame, hne⟩ := (hmem _).1 (Cells.mem_of_count_pos hcount)
    exact hne (hsame.symm.trans hzero)
  · have hread : (pointAt side i, countAt bytes width i) ∈ cells.entries :=
      (hmem _).2 ⟨rfl, Nat.ne_of_gt hpos⟩
    have hcount := Cells.count_of_mem hread
    exact hcount

/-- Writing the cells of a grid at its side gives its bytes again, and none is saturated. -/
theorem write_of_read {bytes : ByteArray} {cells : Cells Point}
    (h : read bytes width = .ok (cells, side)) :
    write cells side width = bytes ∧ saturated cells side width = 0 := by
  obtain ⟨⟨k, -, hhigh, rfl, hk⟩, hentries⟩ := read_eq_ok_iff.1 h
  have hside : 2 ^ k ≤ UInt16.size := size_of_side hhigh
  have hsize : bytes.size = width.bytes * (2 ^ k * 2 ^ k) := by rw [hk, ← Nat.mul_pow]
  have hcounts : ∀ i ∈ List.range (2 ^ k * 2 ^ k),
      cells.count (pointAt (2 ^ k) i) = countAt bytes width i :=
    fun i hi => count_read hside hentries (List.mem_range.1 hi)
  constructor
  · have hlist : (write cells (2 ^ k) width).data.toList = bytes.data.toList := by
      rw [toList_write cells hside, points_eq, List.map_map, ← cellBytes_countAt hsize]
      exact congrArg (cellBytes width) (List.map_congr_left hcounts)
    exact ByteArray.ext (Array.toList_inj.1 hlist)
  · rw [saturated_eq cells hside, List.countP_eq_zero]
    intro p hp
    rw [points_eq] at hp
    obtain ⟨i, hi, rfl⟩ := List.mem_map.1 hp
    rw [hcounts i hi, decide_eq_true_eq]
    exact Nat.not_lt.2 (countAt_le hsize (List.mem_range.1 hi))

end Dense

end ListMode
