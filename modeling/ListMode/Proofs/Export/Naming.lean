import ListMode.Proofs.Export.RunLength
import ListMode.Proofs.Outcome

/-!
# The entries that a text names

A run-length text falls into items, which are moves and counts (`RunLength.items`).  The rules
of the format are those of `RunLength.Names`: a move changes the place, and a count names an
entry at the place and goes one column on.  What a reader makes of tokens are the entries that
their items name (`RunLength.names_of_decodePoints`, `RunLength.names_of_decodeBins`).

Every count token names one entry, in the order of the text (`RunLength.Names.values`).  As long
as every move to another row goes at least one row on, the place only goes forward, so that the
entries ascend (`RunLength.Names.ascending`).  A move of no rows goes back to column zero of its
row, and then cells can be named again.  Of the counts that are named for a cell the last is
kept (`Cells.get?_ofEntries`), and the sum of the cells is short of that of the entries by those
that were overwritten (`Cells.sum_ofEntries`).
-/

namespace ListMode

open Coordinate (index)

/-! ## Entries of one cell -/

section

variable {κ : Type} [Coordinate κ]

namespace Cells

/-- Ascending entries are the cells of which they are put together. -/
theorem ofEntries_eq_foldr (es : List (κ × Nat)) :
    ofEntries es = es.foldr (fun e c => c.alter e.1 (·.getD e.2)) empty := by
  induction es with
  | nil => rfl
  | cons e es ih =>
      rw [ofEntries]
      split
      · next hascends =>
          obtain ⟨first, rest⟩ := List.pairwise_cons.1 (ascends_iff.1 hascends)
          rw [List.foldr_cons, ← ih]
          refine entries_inj.1 ?_
          show e :: es = alterEntry e.1 _ (ofEntries es).entries
          rw [entries_ofEntries rest]
          cases es with
          | nil => rfl
          | cons d es => rw [alterEntry, if_pos (first d List.mem_cons_self)]; rfl
      · rfl

/-- An entry counts where none of those behind it has the same cell. -/
theorem ofEntries_cons (e : κ × Nat) (es : List (κ × Nat)) :
    ofEntries (e :: es) = (ofEntries es).alter e.1 (·.getD e.2) := by
  rw [ofEntries_eq_foldr, List.foldr_cons, ← ofEntries_eq_foldr]

variable [DecidableEq κ]

/-- Of the entries of a cell the last is kept. -/
theorem get?_ofEntries (es : List (κ × Nat)) (k : κ) :
    (ofEntries es).get? k = es.reverse.lookup k := by
  induction es with
  | nil => rfl
  | cons e es ih =>
      obtain ⟨l, n⟩ := e
      rw [ofEntries_cons, get?_alter, List.reverse_cons, List.lookup_append, ← ih]
      simp only [index_eq_iff, List.lookup_cons, List.lookup_nil]
      by_cases same : l = k
      · obtain rfl := same
        cases (ofEntries es).get? l with
        | none => simp
        | some m => simp
      · have other : (k == l) = false := beq_false_of_ne (Ne.symm same)
        simp [same, other]

theorem mem_of_mem_ofEntries {es : List (κ × Nat)} {e : κ × Nat} (h : e ∈ (ofEntries es).entries) :
    e ∈ es := by
  rw [← get?_eq_some_iff (k := e.1), get?_ofEntries, List.lookup_eq_some_iff] at h
  obtain ⟨_, _, split, -⟩ := h
  exact List.mem_reverse.1 (split ▸ List.mem_append_right _ List.mem_cons_self)

/-- A cell is stored if and only if there is an entry of it. -/
theorem get?_ofEntries_eq_none_iff {es : List (κ × Nat)} {k : κ} :
    (ofEntries es).get? k = none ↔ k ∉ es.map Prod.fst := by
  rw [get?_ofEntries, List.lookup_eq_none_iff]
  simp only [List.mem_reverse, bne_iff_ne, List.mem_map, not_exists, not_and]
  exact forall₂_congr fun e _ => ne_comm

end Cells

variable [DecidableEq κ]

/-- The entries that a later entry of the same cell takes the place of. -/
def overwritten : List (κ × Nat) → List (κ × Nat)
  | [] => []
  | e :: es => if e.1 ∈ es.map Prod.fst then e :: overwritten es else overwritten es

/-- No cell is named twice by entries in ascending order. -/
theorem overwritten_of_ascending {es : List (κ × Nat)} (h : Ascending es) :
    overwritten es = [] := by
  induction es with
  | nil => rfl
  | cons e es ih =>
      obtain ⟨first, rest⟩ := List.pairwise_cons.1 h
      have new : e.1 ∉ es.map Prod.fst := by
        rw [List.mem_map]
        rintro ⟨d, hd, same⟩
        exact Nat.ne_of_lt (first d hd) (congrArg index same.symm)
      rw [overwritten, if_neg new, ih rest]

/-- What is missing from the cells of entries are the counts that were overwritten. -/
theorem Cells.sum_ofEntries (es : List (κ × Nat)) :
    (ofEntries es).sum + ((overwritten es).map Prod.snd).sum = (es.map Prod.snd).sum := by
  induction es with
  | nil => rfl
  | cons e es ih =>
      have change := (ofEntries es).sum_alter e.1 (·.getD e.2)
      rw [← ofEntries_cons] at change
      rw [overwritten, List.map_cons, List.sum_cons]
      split
      · next again =>
          obtain ⟨n, stored⟩ : ∃ n, (ofEntries es).get? e.1 = some n :=
            Option.ne_none_iff_exists'.1 fun none => get?_ofEntries_eq_none_iff.1 none again
          have count : (ofEntries es).count e.1 = n := by rw [Cells.count, stored, Option.getD_some]
          rw [stored, count, Option.getD_some] at change
          rw [List.map_cons, List.sum_cons]
          omega
      · next new =>
          have absent := get?_ofEntries_eq_none_iff.2 new
          have count : (ofEntries es).count e.1 = 0 := by rw [Cells.count, absent, Option.getD_none]
          rw [absent, count, Option.getD_none] at change
          omega

end

namespace RunLength

open Text (natural? tokens)

/-! ## Items -/

/-- What a token says, or a marker with the token behind it. -/
inductive Item where
  /-- A move in the direction of a marker. -/
  | move (marker length : List Char)
  /-- The count of the cell at the place. -/
  | count (token : List Char)
deriving DecidableEq, Repr

/-- The markers of the texts of spectra with some axes. -/
def markers : Axes → List (List Char)
  | .one => [['0']]
  | .two => [['+'], ['0']]

/-- The items of tokens.  A marker that nothing stands behind has an empty length. -/
def items (markers : List (List Char)) : List (List Char) → List Item
  | [] => []
  | t :: ts =>
    if t ∈ markers then
      match ts with
      | [] => [.move t []]
      | u :: ts => .move t u :: items markers ts
    else .count t :: items markers ts

theorem items_move {markers : List (List Char)} {t : List Char} (h : t ∈ markers) (u : List Char)
    (ts : List (List Char)) : items markers (t :: u :: ts) = .move t u :: items markers ts := by
  rw [items, if_pos h]

theorem items_count {markers : List (List Char)} {t : List Char} (h : t ∉ markers)
    (ts : List (List Char)) : items markers (t :: ts) = .count t :: items markers ts := by
  rw [items.eq_def]
  exact if_neg h

/-- The token of a count. -/
def Item.token? : Item → Option (List Char)
  | .move _ _ => none
  | .count token => some token

/-- The items of a text. -/
def itemsOf (axes : Axes) (text : List Char) : List Item := items (markers axes) (tokens text)

/-- The tokens of a text that are neither markers nor lengths. -/
def countTokens (axes : Axes) (text : List Char) : List (List Char) :=
  (itemsOf axes text).filterMap Item.token?

/-- The item is no move of no rows. -/
def Item.Advances : Item → Prop
  | .move marker length => marker = ['+'] → natural? 16 length ≠ some 0
  | .count _ => True

instance : DecidablePred Item.Advances
  | .move marker length =>
      inferInstanceAs (Decidable (marker = ['+'] → natural? 16 length ≠ some 0))
  | .count _ => .isTrue trivial

/-- One axis has no moves to another row. -/
theorem advances_of_one (ts : List (List Char)) :
    ∀ item ∈ items (markers .one) ts, item.Advances := by
  have columns : ∀ {marker length : List Char}, marker ∈ markers .one →
      (Item.move marker length).Advances := by
    rintro marker length hmarker rfl
    simp [markers] at hmarker
  fun_induction items (markers .one) ts with
  | case1 => exact List.forall_mem_nil _
  | case2 t hmarker => exact List.forall_mem_singleton.2 (columns hmarker)
  | case3 t hmarker u ts ih => exact List.forall_mem_cons.2 ⟨columns hmarker, ih⟩
  | case4 t ts hmarker ih => exact List.forall_mem_cons.2 ⟨trivial, ih⟩

/-! ## Entries that are named -/

/-- Items name entries from a row and a column on. -/
inductive Names : Nat → Nat → List Item → List (Point × Nat) → Prop
  | done {row column : Nat} : Names row column [] []
  | rows {row column n : Nat} {length : List Char} {later : List Item}
      {entries : List (Point × Nat)} (said : natural? 16 length = some n)
      (rest : Names (row + n) 0 later entries) :
      Names row column (.move ['+'] length :: later) entries
  | columns {row column n : Nat} {length : List Char} {later : List Item}
      {entries : List (Point × Nat)} (said : natural? 16 length = some n)
      (rest : Names row (column + n) later entries) :
      Names row column (.move ['0'] length :: later) entries
  | count {p : Point} {n : Nat} {token : List Char} {later : List Item}
      {entries : List (Point × Nat)} (said : natural? 64 token = some n)
      (rest : Names p.row.toNat (p.column.toNat + 1) later entries) :
      Names p.row.toNat p.column.toNat (.count token :: later) ((p, n) :: entries)

theorem natural?_of_lengthOf {t : Numbered} {n : Nat} (h : lengthOf t = .ok n) :
    natural? 16 t.2 = some n := by
  unfold lengthOf at h
  split at h
  · next hn =>
      cases h
      exact hn
  · cases h

theorem natural?_of_countOf {t : Numbered} {n : Nat} (h : countOf t = .ok n) :
    natural? 64 t.2 = some n := by
  unfold countOf at h
  split at h
  · next hn =>
      cases h
      exact hn
  · cases h

theorem toNat_of_binOf {t : Numbered} {place : Nat} {j : Bin} (h : binOf t place = .ok j) :
    j.toNat = place := by
  unfold binOf at h
  split at h
  · next room =>
      cases h
      exact UInt16.toNat_ofNat_of_lt' room
  · cases h

/-- Points are read as the entries that the tokens name. -/
theorem names_of_decodePoints {row column : Nat} {ts : List Numbered}
    {entries : List (Point × Nat)} (h : decodePoints row column ts = .ok entries) :
    Names row column (items (markers .two) (ts.map Prod.snd)) entries := by
  have plus : ['+'] ∈ markers .two := by decide
  have zero : ['0'] ∈ markers .two := by decide
  induction row, column, ts using decodePoints.induct generalizing entries with
  | case1 row column =>
      cases h
      exact .done
  | case2 row column t hplus => simp [decodePoints, hplus] at h
  | case3 row column t hplus u rest ih =>
      rw [decodePoints, if_pos hplus] at h
      obtain ⟨n, hn, h⟩ := exists_of_bind_eq_ok h
      rw [List.map_cons, List.map_cons, hplus, items_move plus]
      exact .rows (natural?_of_lengthOf hn) (ih n h)
  | case4 row column t _ hzero => simp [decodePoints, hzero] at h
  | case5 row column t hplus hzero u rest ih =>
      rw [decodePoints, if_neg hplus, if_pos hzero] at h
      obtain ⟨n, hn, h⟩ := exists_of_bind_eq_ok h
      rw [List.map_cons, List.map_cons, hzero, items_move zero]
      exact .columns (natural?_of_lengthOf hn) (ih n h)
  | case6 row column t rest hplus hcount ih =>
      unfold decodePoints at h
      rw [if_neg hplus, if_neg hcount] at h
      obtain ⟨n, hn, h⟩ := exists_of_bind_eq_ok h
      obtain ⟨i, hi, h⟩ := exists_of_bind_eq_ok h
      obtain ⟨j, hj, h⟩ := exists_of_bind_eq_ok h
      obtain ⟨later, hlater, h⟩ := exists_of_bind_eq_ok h
      cases h
      obtain rfl := toNat_of_binOf hi
      obtain rfl := toNat_of_binOf hj
      have hmarker : t.2 ∉ markers .two := by simp [markers, hplus, hcount]
      rw [List.map_cons, items_count hmarker]
      exact .count (p := ⟨i, j⟩) (natural?_of_countOf hn) (ih hlater)

/-- Bins are read as the entries that the tokens name on row zero. -/
theorem names_of_decodeBins {column : Nat} {ts : List Numbered} {entries : List (Bin × Nat)}
    (h : decodeBins column ts = .ok entries) :
    Names 0 column (items (markers .one) (ts.map Prod.snd)) (entries.map (onRow 0)) := by
  have zero : ['0'] ∈ markers .one := by decide
  induction column, ts using decodeBins.induct generalizing entries with
  | case1 column =>
      cases h
      exact .done
  | case2 column t hzero => simp [decodeBins, hzero] at h
  | case3 column t hzero u rest ih =>
      rw [decodeBins, if_pos hzero] at h
      obtain ⟨n, hn, h⟩ := exists_of_bind_eq_ok h
      rw [List.map_cons, List.map_cons, hzero, items_move zero]
      exact .columns (natural?_of_lengthOf hn) (ih n h)
  | case4 column t rest hcount ih =>
      unfold decodeBins at h
      rw [if_neg hcount] at h
      obtain ⟨n, hn, h⟩ := exists_of_bind_eq_ok h
      obtain ⟨j, hj, h⟩ := exists_of_bind_eq_ok h
      obtain ⟨later, hlater, h⟩ := exists_of_bind_eq_ok h
      cases h
      obtain rfl := toNat_of_binOf hj
      have hmarker : t.2 ∉ markers .one := by simp [markers, hcount]
      rw [List.map_cons, items_count hmarker]
      exact .count (p := ⟨0, j⟩) (natural?_of_countOf hn) (ih hlater)

section

variable {row column : Nat} {its : List Item} {entries : List (Point × Nat)}

/-- Each count token names one entry with its value. -/
theorem Names.values (h : Names row column its entries) :
    (its.filterMap Item.token?).map (natural? 64) = entries.map fun e => some e.2 := by
  induction h with
  | done => rfl
  | rows _ _ ih => exact ih
  | columns _ _ ih => exact ih
  | count said _ ih =>
      rw [List.filterMap_cons_some (f := Item.token?) rfl, List.map_cons, List.map_cons, said, ih]

/-- As long as rows advance, nothing is named in front of the place. -/
theorem Names.behind (h : Names row column its entries) (advance : ∀ item ∈ its, item.Advances) :
    ∀ e ∈ entries, row < e.1.row.toNat ∨ row = e.1.row.toNat ∧ column ≤ e.1.column.toNat := by
  induction h with
  | done => exact List.forall_mem_nil _
  | @rows row column n length later entries said rest ih =>
      obtain ⟨first, advance⟩ := List.forall_mem_cons.1 advance
      have forward : n ≠ 0 := by
        rintro rfl
        exact first rfl said
      intro e he
      have := ih advance e he
      omega
  | columns said rest ih =>
      intro e he
      have := ih (List.forall_mem_cons.1 advance).2 e he
      omega
  | count said rest ih =>
      refine List.forall_mem_cons.2 ⟨.inr ⟨rfl, Nat.le_refl _⟩, fun e he => ?_⟩
      have := ih (List.forall_mem_cons.1 advance).2 e he
      omega

/-- As long as rows advance, the entries ascend. -/
theorem Names.ascending (h : Names row column its entries)
    (advance : ∀ item ∈ its, item.Advances) : Ascending entries := by
  induction h with
  | done => exact .nil
  | rows _ _ ih => exact ih (List.forall_mem_cons.1 advance).2
  | columns _ _ ih => exact ih (List.forall_mem_cons.1 advance).2
  | count said rest ih =>
      have advance := (List.forall_mem_cons.1 advance).2
      exact List.pairwise_cons.2
        ⟨fun e he => Point.index_lt.2 (rest.behind advance e he), ih advance⟩

end

/-- Points on a row ascend if and only if their bins do. -/
theorem ascending_onRow {row : Bin} {entries : List (Bin × Nat)} :
    Ascending (entries.map (onRow row)) ↔ Ascending entries := by
  rw [Ascending, List.pairwise_map]
  refine List.Pairwise.iff fun a b => ?_
  rw [Point.index_lt]
  simp [onRow, index]

/-! ## Texts -/

/-- On two axes a text is read as the cells of the entries that it names. -/
theorem decode₂_eq_ok {text : List Char} {points : Cells Point} {m : Bin}
    (h : decode₂ text = .ok (points, m)) : ∃ named, Names 0 0 (itemsOf .two text) named ∧
      points = .ofEntries named ∧ m = highestPoint named := by
  obtain ⟨named, hnamed, h⟩ := exists_of_bind_eq_ok h
  cases h
  have names := names_of_decodePoints hnamed
  rw [map_snd_numbered] at names
  exact ⟨named, names, rfl, rfl⟩

/-- On one axis a text names what is stored. -/
theorem decode₁_eq_ok {text : List Char} {bins : Cells Bin} {m : Bin}
    (h : decode₁ text = .ok (bins, m)) :
    Names 0 0 (itemsOf .one text) (bins.entries.map (onRow 0)) ∧ m = highestBin bins.entries := by
  obtain ⟨named, hnamed, h⟩ := exists_of_bind_eq_ok h
  cases h
  have names := names_of_decodeBins hnamed
  rw [map_snd_numbered] at names
  have ascending : Ascending named := ascending_onRow.1 (names.ascending (advances_of_one _))
  rw [Cells.entries_ofEntries ascending]
  exact ⟨names, rfl⟩

end RunLength

end ListMode
