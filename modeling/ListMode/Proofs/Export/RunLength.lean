import ListMode.Proofs.Spectrum.Storage
import ListMode.Proofs.Text.Tokens

/-!
# Run-length text, written and read

What is written for the cells of a spectrum is read back as the cells with a
count (`RunLength.decode_encode_cells`).  A writer and a reader keep a place on the
axes, and both places are the same but for one: behind the last column of a row
the writer stays in that column and the reader is one past it.  Nothing more can
follow on that row, and the next row starts at column zero, so the induction over
the entries carries the reader's place, and the writer's is that one held at the
last column (`RunLength.decodePoints_encodePoints`).

A one-axis text is a two-axis text on one row, for the writer
(`RunLength.encodeBins_eq`) and for the reader (`RunLength.decodePoints_onRow`).
-/

namespace ListMode.RunLength

open Coordinate (index)
open Text (IsToken decimal natural? tokens)

/-! ## The tokens of a text -/

theorem tokens_token {cs : List Char} (h : IsToken cs) (rest : List Char) :
    tokens (token cs ++ rest) = cs :: tokens rest :=
  Text.tokens_append h rfl rest

/-- The tokens of a move, none when there is nothing to move. -/
def moveTokens (marker : Char) (n : Nat) : List (List Char) :=
  if n = 0 then [] else [[marker], decimal n]

theorem isToken_zero : IsToken ['0'] := Text.isToken_singleton rfl

theorem isToken_plus : IsToken ['+'] := Text.isToken_singleton rfl

theorem tokens_skip (n : Nat) (rest : List Char) :
    tokens (skip n ++ rest) = moveTokens '0' n ++ tokens rest := by
  rw [skip, moveTokens]
  split
  · rfl
  · rw [List.append_assoc, tokens_token isToken_zero, tokens_token (Text.isToken_decimal n)]
    rfl

theorem tokens_newRow (n : Nat) (rest : List Char) :
    tokens (newRow n ++ rest) = moveTokens '+' n ++ tokens rest := by
  rw [newRow, moveTokens]
  split
  · rfl
  · rw [List.append_assoc, tokens_token isToken_plus, tokens_token (Text.isToken_decimal n)]
    rfl

theorem map_snd_numbered (text : List Char) : (numbered text).map Prod.snd = tokens text := by
  simp [numbered, Function.comp_def]

/-! ## Reading what was written -/

theorem lengthOf_decimal {n : Nat} (h : n < UInt16.size) (i : Nat) :
    lengthOf (i, decimal n) = .ok n := by
  rw [lengthOf, Text.natural?_decimal h]

theorem countOf_decimal {n : Nat} (h : n ≤ countLimit) (i : Nat) :
    countOf (i, decimal n) = .ok n := by
  have hlimit : n < 2 ^ 64 := Nat.lt_of_le_of_lt h (by decide)
  rw [countOf, Text.natural?_decimal hlimit]

theorem binOf_toNat (t : Numbered) (j : Bin) : binOf t j.toNat = .ok j := by
  rw [binOf, if_pos j.toNat_lt, UInt16.ofNat_toNat]

/-- Tokens that spell a move are none, or a marker and a number. -/
theorem moveTokens_cases {marker : Char} {n : Nat} {ts : List Numbered} {words : List (List Char)}
    (h : ts.map Prod.snd = moveTokens marker n ++ words) :
    (n = 0 ∧ ts.map Prod.snd = words) ∨
      (n ≠ 0 ∧ ∃ i k us, ts = (i, [marker]) :: (k, decimal n) :: us ∧ us.map Prod.snd = words) := by
  rw [moveTokens] at h
  split at h
  · next hzero => exact .inl ⟨hzero, h⟩
  · next hzero =>
      match ts, h with
      | (i, _) :: (k, _) :: us, h =>
          simp only [List.map_cons, List.cons_append, List.cons.injEq, List.nil_append] at h
          obtain ⟨rfl, rfl, h⟩ := h
          exact .inr ⟨hzero, i, k, us, rfl, h⟩

/-- Reading a move to another row. -/
theorem decodePoints_newRow {n : Nat} (hn : n < UInt16.size) {ts : List Numbered}
    {words : List (List Char)} (h : ts.map Prod.snd = moveTokens '+' n ++ words)
    (row column : Nat) : ∃ us : List Numbered, us.map Prod.snd = words ∧
      decodePoints row column ts = decodePoints (row + n) (if n = 0 then column else 0) us := by
  rcases moveTokens_cases h with ⟨rfl, hts⟩ | ⟨hzero, i, k, us, rfl, hus⟩
  · exact ⟨ts, hts, rfl⟩
  · refine ⟨us, hus, ?_⟩
    rw [decodePoints, if_pos rfl, lengthOf_decimal hn, if_neg hzero]
    rfl

/-- Reading a move to another column. -/
theorem decodePoints_skip {n : Nat} (hn : n < UInt16.size) {ts : List Numbered}
    {words : List (List Char)} (h : ts.map Prod.snd = moveTokens '0' n ++ words)
    (row column : Nat) : ∃ us : List Numbered, us.map Prod.snd = words ∧
      decodePoints row column ts = decodePoints row (column + n) us := by
  rcases moveTokens_cases h with ⟨rfl, hts⟩ | ⟨-, i, k, us, rfl, hus⟩
  · exact ⟨ts, hts, rfl⟩
  · refine ⟨us, hus, ?_⟩
    rw [decodePoints, if_neg (by simp), if_pos rfl, lengthOf_decimal hn]
    rfl

/-- Reading the count of the cell at the place. -/
theorem decodePoints_count {n : Nat} (hn : n ≠ 0) (hlimit : n ≤ countLimit) {ts : List Numbered}
    {words : List (List Char)} (h : ts.map Prod.snd = decimal n :: words) (p : Point) :
    ∃ us : List Numbered, us.map Prod.snd = words ∧
      decodePoints p.row.toNat p.column.toNat ts =
        (decodePoints p.row.toNat (p.column.toNat + 1) us).map ((p, n) :: ·) := by
  match ts, h with
  | (i, count) :: us, h =>
      simp only [List.map_cons, List.cons.injEq] at h
      obtain ⟨rfl, h⟩ := h
      refine ⟨us, h, ?_⟩
      rw [decodePoints.eq_def]
      simp only
      rw [if_neg Text.decimal_ne_plus, if_neg (mt Text.decimal_eq_zero_iff.1 hn),
        countOf_decimal hlimit, binOf_toNat, binOf_toNat]
      cases decodePoints p.row.toNat (p.column.toNat + 1) us <;> rfl

/-- The tokens of the text of an entry and of the entries behind it. -/
theorem tokens_encodePoints (row column : Nat) (p : Point) (n : Nat) (rest : List (Point × Nat)) :
    tokens (encodePoints row column ((p, n) :: rest)) =
      moveTokens '+' (p.row.toNat - row) ++
        (moveTokens '0' (p.column.toNat - if p.row.toNat > row then 0 else column) ++
          decimal n :: tokens
            (encodePoints (max row p.row.toNat) (min (p.column.toNat + 1) 0xFFFF) rest)) := by
  rw [encodePoints]
  simp only [List.append_assoc, tokens_newRow, tokens_skip, tokens_token (Text.isToken_decimal n)]

/-- Entries are read back from their text at the place where it was written, the column of
the writer being held at the last one. -/
theorem decodePoints_encodePoints {entries : List (Point × Nat)} (hascending : Ascending entries)
    (hcounts : ∀ e ∈ entries, e.2 ≠ 0 ∧ e.2 ≤ countLimit) : ∀ {row column : Nat},
    (∀ e ∈ entries, row < e.1.row.toNat ∨ row = e.1.row.toNat ∧ column ≤ e.1.column.toNat) →
    ∀ {ts : List Numbered},
      ts.map Prod.snd = tokens (encodePoints row (min column 0xFFFF) entries) →
      decodePoints row column ts = .ok entries := by
  induction entries with
  | nil =>
      intro row column _ ts hts
      obtain rfl := List.map_eq_nil_iff.1 hts
      rfl
  | cons e rest ih =>
      intro row column hfrom ts hts
      obtain ⟨p, n⟩ := e
      obtain ⟨hnext, hascending⟩ := List.pairwise_cons.1 hascending
      rw [List.forall_mem_cons] at hcounts hfrom
      obtain ⟨⟨hn, hlimit⟩, hcounts⟩ := hcounts
      have hfrom : row < p.row.toNat ∨ row = p.row.toNat ∧ column ≤ p.column.toNat := hfrom.1
      have hrow := p.row.toNat_lt
      have hcolumn := p.column.toNat_lt
      rw [tokens_encodePoints] at hts
      obtain ⟨us, hus, hmoved⟩ := decodePoints_newRow
        (Nat.lt_of_le_of_lt (Nat.sub_le _ _) hrow) hts row column
      obtain ⟨vs, hvs, hskipped⟩ := decodePoints_skip
        (Nat.lt_of_le_of_lt (Nat.sub_le _ _) hcolumn) hus (row + (p.row.toNat - row))
          (if p.row.toNat - row = 0 then column else 0)
      obtain ⟨ws, hws, hcounted⟩ := decodePoints_count hn hlimit hvs p
      -- a new row starts at column zero for both, and on the same row the cell is not
      -- behind the reader's column, so that the writer's was not held back
      have hplace : row + (p.row.toNat - row) = p.row.toNat := by omega
      have hcolumns : (if p.row.toNat - row = 0 then column else 0) +
          (p.column.toNat - if p.row.toNat > row then 0 else min column 0xFFFF) =
            p.column.toNat := by
        split <;> split <;> omega
      rw [hmoved, hskipped, hplace, hcolumns, hcounted]
      have hrest : decodePoints p.row.toNat (p.column.toNat + 1) ws = .ok rest := by
        refine ih hascending hcounts (fun e he => ?_) ?_
        · exact Point.index_lt.1 (hnext e he)
        · rw [hws, Nat.max_eq_right (by omega)]
      rw [hrest]
      rfl

/-! ## One axis -/

/-- The entry of a bin as that of a point on a row. -/
def onRow (row : Bin) (e : Bin × Nat) : Point × Nat := (⟨row, e.1⟩, e.2)

theorem onRow_injective (row : Bin) : Function.Injective (onRow row) := by
  rintro ⟨j, n⟩ ⟨k, m⟩ h
  simpa [onRow] using h

/-- The text of bins is that of points on row zero. -/
theorem encodeBins_eq (entries : List (Bin × Nat)) : ∀ column,
    encodeBins column entries = encodePoints 0 column (entries.map (onRow 0)) := by
  induction entries with
  | nil => exact fun _ => rfl
  | cons e rest ih =>
      intro column
      obtain ⟨j, n⟩ := e
      rw [encodeBins, ih]
      rfl

/-- No row marker is written for bins. -/
theorem plus_notMem_tokens (entries : List (Bin × Nat)) : ∀ column,
    ['+'] ∉ tokens (encodeBins column entries) := by
  induction entries with
  | nil => exact fun _ => List.not_mem_nil
  | cons e rest ih =>
      intro column
      obtain ⟨j, n⟩ := e
      rw [encodeBins, List.append_assoc, tokens_skip, tokens_token (Text.isToken_decimal n),
        List.mem_append, List.mem_cons, moveTokens]
      have hnumber : ∀ n, ['+'] ≠ decimal n := fun n h => Text.decimal_ne_plus h.symm
      rintro (hmove | hcount | hrest)
      · split at hmove
        · cases hmove
        · rw [List.mem_cons, List.mem_singleton] at hmove
          rcases hmove with hzero | hlength
          · cases hzero
          · exact hnumber _ hlength
      · exact hnumber n hcount
      · exact ih _ hrest

/-- Tokens without a row marker are read on one axis as on a row of two. -/
theorem decodePoints_onRow (row : Bin) (column : Nat) (ts : List Numbered)
    (h : ∀ t ∈ ts, t.2 ≠ ['+']) :
    decodePoints row.toNat column ts = (decodeBins column ts).map (List.map (onRow row)) := by
  fun_induction decodeBins column ts with
  | case1 column => rfl
  | case2 column t hzero =>
      rw [decodePoints, if_neg (h t List.mem_cons_self), if_pos hzero]
      rfl
  | case3 column t hzero u rest ih =>
      rw [List.forall_mem_cons, List.forall_mem_cons] at h
      rw [decodePoints, if_neg h.1, if_pos hzero]
      cases lengthOf u with
      | error e => rfl
      | ok n => exact ih n h.2.2
  | case4 column t rest hzero ih =>
      rw [List.forall_mem_cons] at h
      rw [decodePoints.eq_def]
      simp only
      rw [if_neg h.1, if_neg hzero, binOf_toNat]
      cases countOf t with
      | error e => rfl
      | ok n =>
          cases hbin : binOf t column with
          | error e => rfl
          | ok j =>
              have hrest := ih h.2
              cases hbins : decodeBins (column + 1) rest with
              | error e =>
                  rw [hbins] at hrest
                  simp only [bind, Except.bind, hrest]
                  rfl
              | ok entries =>
                  rw [hbins] at hrest
                  simp only [bind, Except.bind, hrest]
                  rfl

theorem decodeBins_encodeBins {entries : List (Bin × Nat)} (hascending : Ascending entries)
    (hcounts : ∀ e ∈ entries, e.2 ≠ 0 ∧ e.2 ≤ countLimit) {ts : List Numbered}
    (hts : ts.map Prod.snd = tokens (encodeBins 0 entries)) : decodeBins 0 ts = .ok entries := by
  have hplus : ∀ t ∈ ts, t.2 ≠ ['+'] := by
    intro t ht hplus
    apply plus_notMem_tokens entries 0
    rw [← hts, ← hplus]
    exact List.mem_map_of_mem ht
  have hpoints : decodePoints 0 0 ts = .ok (entries.map (onRow 0)) := by
    refine decodePoints_encodePoints ?_ ?_ ?_ ?_
    · refine List.pairwise_map.2 (List.Pairwise.imp (fun {a b} h => ?_) hascending)
      exact Point.index_lt.2 (.inr ⟨rfl, h⟩)
    · rw [List.forall_mem_map]
      exact hcounts
    · rw [List.forall_mem_map]
      exact fun e _ => .inr ⟨rfl, Nat.zero_le _⟩
    · rw [hts, encodeBins_eq]
      rfl
  have hbins := (decodePoints_onRow 0 0 ts hplus).symm.trans hpoints
  cases hread : decodeBins 0 ts with
  | error e =>
      rw [hread] at hbins
      cases hbins
  | ok read =>
      rw [hread] at hbins
      exact congrArg Except.ok ((onRow_injective 0).list_map (Except.ok.inj hbins))

/-! ## The highest number -/

/-- The number is the highest of a list, zero when the list is empty. -/
def Highest (m : Bin) (numbers : List Bin) : Prop :=
  (∀ c ∈ numbers, c ≤ m) ∧ (m = 0 ∨ m ∈ numbers)

theorem foldl_max_mem (numbers : List Bin) : ∀ m : Bin,
    numbers.foldl max m = m ∨ numbers.foldl max m ∈ numbers := by
  induction numbers with
  | nil => exact fun _ => .inl rfl
  | cons c numbers ih =>
      intro m
      have hmax : max m c = if m ≤ c then c else m := rfl
      rw [List.foldl_cons]
      rcases ih (max m c) with heq | hmem
      · rw [heq, hmax]
        split
        · exact .inr List.mem_cons_self
        · exact .inl rfl
      · exact .inr (List.mem_cons_of_mem c hmem)

theorem highest_foldl (numbers : List Bin) : Highest (numbers.foldl max 0) numbers :=
  ⟨fun c hc => le_foldl_of_mem Bin.le_max_left hc (fun m => Bin.le_max_right m c) 0,
    foldl_max_mem numbers 0⟩

theorem highest_highestBin (entries : List (Bin × Nat)) :
    Highest (highestBin entries) (entries.map Prod.fst) := by
  have h := highest_foldl (entries.map Prod.fst)
  rwa [List.foldl_map] at h

theorem highest_highestPoint (entries : List (Point × Nat)) :
    Highest (highestPoint entries) (entries.flatMap fun e => [e.1.row, e.1.column]) := by
  have h := highest_foldl (entries.flatMap fun e => [e.1.row, e.1.column])
  rwa [List.foldl_flatMap] at h

/-! ## Round trips -/

theorem ascending_written {κ : Type} [Coordinate κ] (cells : Cells κ) :
    Ascending (written cells.entries) :=
  List.Pairwise.sublist List.filter_sublist cells.ascending

/-- Only counts that are not zero are written, and each is in range. -/
theorem counts_written {κ : Type} {entries : List (κ × Nat)}
    (h : ∀ e ∈ entries, e.2 ≤ countLimit) :
    ∀ e ∈ written entries, e.2 ≠ 0 ∧ e.2 ≤ countLimit := by
  intro e he
  obtain ⟨hmem, hcount⟩ := List.mem_filter.1 he
  exact ⟨by simpa using hcount, h e hmem⟩

theorem sum_written {κ : Type} (entries : List (κ × Nat)) :
    ((written entries).map Prod.snd).sum = (entries.map Prod.snd).sum := by
  induction entries with
  | nil => rfl
  | cons e entries ih =>
      rw [written, List.filter_cons, List.map_cons, List.sum_cons, ← ih]
      by_cases hzero : e.2 = 0
      · simp [hzero, written]
      · simp [hzero, written]

/-- Cells without those that are stored with a zero have the same counts. -/
theorem count_of_written {κ : Type} [Coordinate κ] {c d : Cells κ}
    (h : d.entries = written c.entries) (k : κ) : d.count k = c.count k := by
  have same : d.get? k = (c.get? k).filter (· ≠ 0) := by
    refine Option.ext fun n => ?_
    rw [Cells.get?_eq_some_iff, h, written, List.mem_filter, Option.filter_eq_some_iff,
      Cells.get?_eq_some_iff]
  rw [Cells.count, Cells.count, same]
  cases c.get? k with
  | none => rfl
  | some n =>
      by_cases hzero : n = 0
      · simp [Option.filter_some, hzero]
      · simp [Option.filter_some, hzero]

/-- The text of a spectrum is read back as its cells with a count and the highest number on
an axis, whatever cells are stored. -/
theorem decode_encode_cells (points : Cells Point) (bins : Cells Bin)
    (hpoints : ∀ e ∈ points.entries, e.2 ≤ countLimit)
    (hbins : ∀ e ∈ bins.entries, e.2 ≤ countLimit) :
    (∃ read m, decode₂ (encode₂ points) = .ok (read, m) ∧
        read.entries = points.entries.filter (fun e => e.2 ≠ 0) ∧
        Highest m (read.entries.flatMap fun e => [e.1.row, e.1.column])) ∧
      ∃ read m, decode₁ (encode₁ bins) = .ok (read, m) ∧
        read.entries = bins.entries.filter (fun e => e.2 ≠ 0) ∧
        Highest m (read.entries.map Prod.fst) := by
  constructor
  · have hread : decodePoints 0 0 (numbered (encode₂ points)) = .ok (written points.entries) :=
      decodePoints_encodePoints (ascending_written points) (counts_written hpoints)
        (fun e _ => by omega) (map_snd_numbered (encode₂ points))
    have hcells := Cells.entries_ofEntries (ascending_written points)
    refine ⟨.ofEntries (written points.entries), highestPoint (written points.entries), ?_, ?_, ?_⟩
    · rw [decode₂, hread]
      rfl
    · rw [hcells]
      rfl
    · rw [hcells]
      exact highest_highestPoint _
  · have hread : decodeBins 0 (numbered (encode₁ bins)) = .ok (written bins.entries) :=
      decodeBins_encodeBins (ascending_written bins) (counts_written hbins)
        (map_snd_numbered (encode₁ bins))
    have hcells := Cells.entries_ofEntries (ascending_written bins)
    refine ⟨.ofEntries (written bins.entries), highestBin (written bins.entries), ?_, ?_, ?_⟩
    · rw [decode₁, hread]
      rfl
    · rw [hcells]
      rfl
    · rw [hcells]
      exact highest_highestBin _

/-- Cells at the ends of both axes, a stored zero and a full cell. -/
def cornerPoints : Cells Point :=
  .ofEntries [(⟨0, 65535⟩, 1), (⟨7, 3⟩, 0), (⟨65535, 0⟩, 3), (⟨65535, 65535⟩, countLimit)]

/-- Bins at the ends of the axis and a stored zero. -/
def cornerBins : Cells Bin := .ofEntries [(0, 5), (9, 0), (65535, countLimit)]

theorem decode_encode_cells_corners :
    (∀ e ∈ cornerPoints.entries, e.2 ≤ countLimit) ∧
      (∀ e ∈ cornerBins.entries, e.2 ≤ countLimit) ∧
      (∃ read m, decode₂ (encode₂ cornerPoints) = .ok (read, m) ∧
        read.entries = [(⟨0, 65535⟩, 1), (⟨65535, 0⟩, 3), (⟨65535, 65535⟩, countLimit)] ∧
        m = 65535) ∧
      ∃ read m, decode₁ (encode₁ cornerBins) = .ok (read, m) ∧
        read.entries = [(0, 5), (65535, countLimit)] ∧ m = 65535 := by
  have hpoints : ∀ e ∈ cornerPoints.entries, e.2 ≤ countLimit := by decide +kernel
  have hbins : ∀ e ∈ cornerBins.entries, e.2 ≤ countLimit := by decide +kernel
  obtain ⟨⟨points, m, hread, hentries, hbound, -⟩, bins, k, hread', hentries', hbound', -⟩ :=
    decode_encode_cells cornerPoints cornerBins hpoints hbins
  have hcells : points.entries =
      [(⟨0, 65535⟩, 1), (⟨65535, 0⟩, 3), (⟨65535, 65535⟩, countLimit)] := by
    rw [hentries]
    decide +kernel
  have hcells' : bins.entries = [(0, 5), (65535, countLimit)] := by
    rw [hentries']
    decide +kernel
  have last : ∀ m : Bin, 65535 ≤ m → m = 65535 := fun m h =>
    UInt16.le_antisymm (UInt16.le_iff_toNat_le.2 (Nat.le_of_lt_succ m.toNat_lt)) h
  refine ⟨hpoints, hbins, ⟨points, m, hread, hcells, ?_⟩, bins, k, hread', hcells', ?_⟩
  · exact last m (hbound 65535 (by rw [hcells]; decide))
  · exact last k (hbound' 65535 (by rw [hcells']; decide))

end ListMode.RunLength
