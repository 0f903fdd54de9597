/-!
# Sparse counts

The counts of a spectrum are kept for the cells that were ever counted in.  The
cells of a one-axis spectrum are bins, those of a two-axis spectrum are points;
both are put in order by an index (`Coordinate.index`), rows before columns.

`Cells` is a finite map kept as the list of its entries in ascending order, so
the list is its own sorted view.  `Cells.count` reads a cell, zero when the cell
is not stored; a stored count may itself be zero.
-/

namespace ListMode

/-! ## Coordinates -/

/-- A number on the axis of a spectrum. -/
abbrev Bin := UInt16

/-- A cell of a two-axis spectrum. -/
structure Point where
  /-- The number on the first axis. -/
  row : Bin
  /-- The number on the second axis. -/
  column : Bin
deriving DecidableEq, Repr

/-- The cells of a kind of spectrum, numbered in their order. -/
class Coordinate (κ : Type) where
  /-- The number of a cell. -/
  index : κ → Nat
  /-- Different cells have different numbers. -/
  index_inj : ∀ {a b : κ}, index a = index b → a = b

instance : Coordinate Bin where
  index := UInt16.toNat
  index_inj := UInt16.toNat_inj.1

instance : Coordinate Point where
  index p := p.row.toNat * UInt16.size + p.column.toNat
  index_inj {a b} h := by
    obtain ⟨i, j⟩ := a
    obtain ⟨k, l⟩ := b
    have hj := j.toNat_lt
    have hl := l.toNat_lt
    simp only [UInt16.size, Point.mk.injEq, ← UInt16.toNat_inj] at h ⊢
    omega

open Coordinate (index)

/-- Points are put in order by their rows, in a row by their columns. -/
theorem Point.index_lt {a b : Point} :
    index a < index b ↔ a.row.toNat < b.row.toNat ∨
      a.row.toNat = b.row.toNat ∧ a.column.toNat < b.column.toNat := by
  have := a.column.toNat_lt
  have := b.column.toNat_lt
  show a.row.toNat * 65536 + a.column.toNat < b.row.toNat * 65536 + b.column.toNat ↔ _
  omega

/-! ## Entries -/

variable {κ : Type} [Coordinate κ]

/-- The entries stand in ascending order of their cells, each cell once. -/
def Ascending (entries : List (κ × Nat)) : Prop :=
  entries.Pairwise fun a b => index a.1 < index b.1

/-- A cell stands once in ascending entries. -/
theorem Ascending.eq_of_index {es : List (κ × Nat)} (h : Ascending es) {a b : κ × Nat} (ha : a ∈ es)
    (hb : b ∈ es) (hab : index a.1 = index b.1) : a = b := by
  induction es with
  | nil => simp at ha
  | cons x xs ih =>
    obtain ⟨hx, hxs⟩ := List.pairwise_cons.1 h
    rcases List.mem_cons.1 ha with hax | hax <;> rcases List.mem_cons.1 hb with hbx | hbx
    · exact hax.trans hbx.symm
    · exact absurd (hax ▸ hab) (Nat.ne_of_lt (hx b hbx))
    · exact absurd (hbx ▸ hab).symm (Nat.ne_of_lt (hx a hax))
    · exact ih hxs hax hbx

/-- The entries with the count of one cell replaced by a function of it.  The
cell is stored afterwards, whether it was before or not. -/
def alterEntry (k : κ) (f : Option Nat → Nat) : List (κ × Nat) → List (κ × Nat)
  | [] => [(k, f none)]
  | e :: es =>
    if index k < index e.1 then (k, f none) :: e :: es
    else if index k = index e.1 then (k, f (some e.2)) :: es
    else e :: alterEntry k f es

theorem fst_mem_alterEntry {k : κ} {f : Option Nat → Nat} {es : List (κ × Nat)} {e : κ × Nat}
    (h : e ∈ alterEntry k f es) : e.1 = k ∨ e ∈ es := by
  induction es with
  | nil => simp_all [alterEntry]
  | cons x xs ih =>
    simp only [alterEntry] at h
    split at h
    · rcases List.mem_cons.1 h with rfl | h
      · exact .inl rfl
      · exact .inr h
    · split at h
      · rcases List.mem_cons.1 h with rfl | h
        · exact .inl rfl
        · exact .inr (List.mem_cons_of_mem _ h)
      · rcases List.mem_cons.1 h with rfl | h
        · exact .inr List.mem_cons_self
        · exact (ih h).imp id (List.mem_cons_of_mem _)

theorem Ascending.alterEntry {k : κ} {f : Option Nat → Nat} {es : List (κ × Nat)} (h : Ascending es) :
    Ascending (alterEntry k f es) := by
  induction es with
  | nil => simp [ListMode.alterEntry, Ascending]
  | cons x xs ih =>
    obtain ⟨hx, hxs⟩ := List.pairwise_cons.1 h
    simp only [ListMode.alterEntry]
    split
    · next hlt =>
      refine List.pairwise_cons.2 ⟨fun e he => ?_, h⟩
      rcases List.mem_cons.1 he with rfl | he
      · exact hlt
      · exact Nat.lt_trans hlt (hx e he)
    · split
      · next heq =>
        exact List.pairwise_cons.2 ⟨fun e he => by simpa [heq] using hx e he, hxs⟩
      · next hlt hne =>
        refine List.pairwise_cons.2 ⟨fun e he => ?_, ih hxs⟩
        rcases fst_mem_alterEntry he with he | he
        · simp only [he]
          omega
        · exact hx e he

/-- The entries ascend, looked at from one to the next. -/
def ascends : List (κ × Nat) → Bool
  | a :: b :: es => index a.1 < index b.1 && ascends (b :: es)
  | _ => true

theorem ascends_iff {es : List (κ × Nat)} : ascends es = true ↔ Ascending es := by
  induction es with
  | nil => simp [ascends, Ascending]
  | cons a es ih =>
    cases es with
    | nil => simp [ascends, Ascending]
    | cons b es =>
      simp only [ascends, Bool.and_eq_true, decide_eq_true_eq, ih]
      constructor
      · rintro ⟨hab, h⟩
        refine List.pairwise_cons.2 ⟨fun e he => ?_, h⟩
        rcases List.mem_cons.1 he with rfl | he
        · exact hab
        · exact Nat.lt_trans hab ((List.pairwise_cons.1 h).1 e he)
      · intro h
        obtain ⟨ha, h⟩ := List.pairwise_cons.1 h
        exact ⟨ha b List.mem_cons_self, h⟩

/-- Altering one cell of ascending entries is seen at that cell only. -/
theorem find?_alterEntry {k l : κ} {f : Option Nat → Nat} {es : List (κ × Nat)} (h : Ascending es) :
    ((alterEntry k f es).find? fun e => index e.1 == index l).map Prod.snd =
      if index k = index l then some (f ((es.find? fun e => index e.1 == index k).map Prod.snd))
      else (es.find? fun e => index e.1 == index l).map Prod.snd := by
  induction es with
  | nil => by_cases hkl : index k = index l <;> simp [alterEntry, hkl]
  | cons x xs ih =>
    obtain ⟨hx, hxs⟩ := List.pairwise_cons.1 h
    have absent : index k < index x.1 → (x :: xs).find? (fun e => index e.1 == index k) = none := by
      intro hlt
      refine List.find?_eq_none.2 fun e he => ?_
      rcases List.mem_cons.1 he with rfl | he
      · simp; omega
      · have := hx e he
        simp; omega
    simp only [alterEntry]
    split
    · next hlt =>
      by_cases hkl : index k = index l
      · simp [hkl, hkl ▸ absent hlt]
      · simp [hkl]
    · split
      · next heq =>
        by_cases hkl : index k = index l
        · simp [hkl, ← heq]
        · have : ¬ index x.1 = index l := heq ▸ hkl
          simp [hkl, this]
      · next hlt hne =>
        by_cases hxl : index x.1 = index l
        · have hkl : ¬ index k = index l := by omega
          simp [hxl, hkl]
        · have hxk : ¬ index x.1 = index k := fun h => hne h.symm
          simp [hxl, hxk, ih hxs]

/-! ## Cells -/

/-- The counts of a spectrum. -/
structure Cells (κ : Type) [Coordinate κ] where
  /-- The stored cells with their counts, in ascending order. -/
  entries : List (κ × Nat)
  /-- The cells ascend. -/
  ascending : Ascending entries

/-- The largest count a cell holds. -/
def countLimit : Nat := UInt64.size - 1

namespace Cells

/-- No cell is stored. -/
def empty : Cells κ := ⟨[], List.Pairwise.nil⟩

instance : Inhabited (Cells κ) := ⟨empty⟩

instance : EmptyCollection (Cells κ) := ⟨empty⟩

theorem entries_inj {c d : Cells κ} : c.entries = d.entries ↔ c = d := by
  cases c
  cases d
  simp

instance [DecidableEq κ] : DecidableEq (Cells κ) := fun _ _ => decidable_of_iff _ entries_inj

/-- The count a cell is stored with. -/
def get? (c : Cells κ) (k : κ) : Option Nat :=
  (c.entries.find? fun e => index e.1 == index k).map Prod.snd

/-- The count of a cell, zero when the cell is not stored. -/
def count (c : Cells κ) (k : κ) : Nat := (c.get? k).getD 0

/-- The cells with the count of one of them replaced by a function of it. -/
def alter (c : Cells κ) (k : κ) (f : Option Nat → Nat) : Cells κ :=
  ⟨alterEntry k f c.entries, c.ascending.alterEntry⟩

/-- The cells with the count of one of them set. -/
def set (c : Cells κ) (k : κ) (n : Nat) : Cells κ := c.alter k fun _ => n

/-- The cells with `n` more counts in one of them, held at the largest count. -/
def bump (c : Cells κ) (k : κ) (n : Nat) : Cells κ :=
  c.alter k fun m => min (m.getD 0 + n) countLimit

/-- The cells of a list of entries; of two entries of a cell the later counts. -/
def ofEntries (entries : List (κ × Nat)) : Cells κ :=
  if h : ascends entries then ⟨entries, ascends_iff.1 h⟩
  else entries.foldr (fun e c => c.alter e.1 (·.getD e.2)) empty

theorem entries_ofEntries {es : List (κ × Nat)} (h : Ascending es) : (ofEntries es).entries = es := by
  rw [ofEntries, dif_pos (ascends_iff.2 h)]

theorem get?_alter (c : Cells κ) (k l : κ) (f : Option Nat → Nat) :
    (c.alter k f).get? l = if index k = index l then some (f (c.get? k)) else c.get? l :=
  find?_alterEntry c.ascending

theorem count_bump (c : Cells κ) (k l : κ) (n : Nat) :
    (c.bump k n).count l =
      if index k = index l then min (c.count k + n) countLimit else c.count l := by
  by_cases h : index k = index l <;> simp [count, bump, get?_alter, h]

/-- The stored counts are those of the entries. -/
theorem get?_eq_some_iff {c : Cells κ} {k : κ} {n : Nat} :
    c.get? k = some n ↔ (k, n) ∈ c.entries := by
  unfold get?
  constructor
  · intro h
    obtain ⟨e, he, rfl⟩ := Option.map_eq_some_iff.1 h
    have hk : index e.1 = index k := by simpa using List.find?_some he
    exact Coordinate.index_inj hk ▸ List.mem_of_find?_eq_some he
  · intro h
    obtain ⟨e, he⟩ := Option.isSome_iff_exists.1
      (List.find?_isSome (p := fun e => index e.1 == index k).2 ⟨(k, n), h, by simp⟩)
    have hk : index e.1 = index k := by simpa using List.find?_some he
    rw [he, c.ascending.eq_of_index (List.mem_of_find?_eq_some he) h hk, Option.map_some]

theorem nodup_entries (c : Cells κ) : c.entries.Nodup := by
  refine List.Pairwise.imp ?_ c.ascending
  rintro a b hlt rfl
  exact Nat.lt_irrefl _ hlt

/-- Cells with the same stored counts are the same. -/
theorem eq_of_get? {c d : Cells κ} (h : ∀ k, c.get? k = d.get? k) : c = d := by
  have perm : c.entries.Perm d.entries :=
    (List.perm_ext_iff_of_nodup c.nodup_entries d.nodup_entries).2 fun (k, n) => by
      rw [← get?_eq_some_iff, ← get?_eq_some_iff, h]
  refine entries_inj.1 (List.Perm.eq_of_pairwise (fun a b _ _ hab hba => ?_) c.ascending
    d.ascending perm)
  exact absurd hab (Nat.lt_asymm hba)

/-- The sum of all counts. -/
def sum (c : Cells κ) : Nat := c.entries.foldl (fun sum e => sum + e.2) 0

/-- The sum of all counts, held at the largest count. -/
def total (c : Cells κ) : Nat := min c.sum countLimit

end Cells

end ListMode
