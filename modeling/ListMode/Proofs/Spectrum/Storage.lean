import ListMode.Proofs.Spectrum.Counting
import ListMode.Spectrum.Files
import Mathlib.Algebra.Order.BigOperators.Group.List
import Mathlib.Algebra.Ring.Nat

/-!
# What is stored

Two facts about counts, for each of the ways in which counts come about.  Their sum
(`Counts.sum`) grows by what is added to a cell, as long as no cell is full
(`Counts.sum_bump`).  And no stored cell has a number past a bound (`Counts.Within`),
which holds for the largest number met when cells are raised (`Counts.Within.bump`)
and for the largest number that a run-length text or a listing comes with
(`Counts.within_ofText`, `Listing.within_read`).
-/

namespace ListMode

open Coordinate (index)

/-! ## Cells -/

section

variable {κ : Type} [Coordinate κ]

/-- The sum of entries changes by the change of the one entry. -/
theorem sum_alterEntry {k : κ} {f : Option Nat → Nat} {es : List (κ × Nat)}
    (h : Ascending es) :
    let old := (es.find? fun e => index e.1 == index k).map Prod.snd
    ((alterEntry k f es).map Prod.snd).sum + old.getD 0 = (es.map Prod.snd).sum + f old := by
  induction es with
  | nil => simp [alterEntry]
  | cons x xs ih =>
      obtain ⟨hx, hxs⟩ := List.pairwise_cons.1 h
      intro old
      simp only [alterEntry]
      split
      · next hlt =>
          have hold : old = none := by
            refine Option.map_eq_none_iff.2 (List.find?_eq_none.2 ?_)
            rw [List.forall_mem_cons]
            constructor
            · simp only [beq_iff_eq]
              omega
            · intro e he
              have := hx e he
              simp only [beq_iff_eq]
              omega
          rw [hold]
          simp only [List.map_cons, List.sum_cons, Option.getD_none]
          omega
      · split
        · next hnlt heq =>
            have hold : old = some x.2 := by simp [old, heq]
            rw [hold]
            simp only [List.map_cons, List.sum_cons, Option.getD_some]
            omega
        · next hnlt hne =>
            have hhead : (index x.1 == index k) = false :=
              beq_eq_false_iff_ne.2 fun heq => hne heq.symm
            have hold : old = (xs.find? fun e => index e.1 == index k).map Prod.snd := by
              simp only [old, List.find?_cons, hhead]
            have := ih hxs
            rw [← hold] at this
            simp only [List.map_cons, List.sum_cons]
            omega

/-- Ascending entries are known by what they hold. -/
theorem Ascending.eq_of_mem_iff {as bs : List (κ × Nat)} (ha : Ascending as) (hb : Ascending bs)
    (h : ∀ e, e ∈ as ↔ e ∈ bs) : as = bs := by
  have hcells : (⟨as, ha⟩ : Cells κ) = ⟨bs, hb⟩ := by
    refine Cells.eq_of_get? fun k => Option.ext fun n => ?_
    rw [Cells.get?_eq_some_iff, Cells.get?_eq_some_iff]
    exact h (k, n)
  exact Cells.entries_inj.2 hcells

namespace Cells

theorem count_of_mem {c : Cells κ} {e : κ × Nat} (h : e ∈ c.entries) : c.count e.1 = e.2 := by
  rw [count, get?_eq_some_iff.2 h, Option.getD_some]

theorem mem_of_count_pos {c : Cells κ} {k : κ} (h : 0 < c.count k) :
    (k, c.count k) ∈ c.entries := by
  rw [← get?_eq_some_iff]
  rw [count] at h ⊢
  cases hget : c.get? k with
  | none =>
      rw [hget] at h
      cases h
  | some n => rfl

theorem sum_eq (c : Cells κ) : c.sum = (c.entries.map Prod.snd).sum := by
  rw [sum, List.sum_eq_foldl_nat, List.foldl_map]

theorem count_le_sum (c : Cells κ) (k : κ) : c.count k ≤ c.sum := by
  cases hk : c.get? k with
  | none => simp [count, hk]
  | some n =>
      rw [count, hk, Option.getD_some, sum_eq]
      exact List.single_le_sum (fun _ _ => Nat.zero_le _) n
        (List.mem_map.2 ⟨(k, n), get?_eq_some_iff.1 hk, rfl⟩)

theorem sum_alter (c : Cells κ) (k : κ) (f : Option Nat → Nat) :
    (c.alter k f).sum + c.count k = c.sum + f (c.get? k) := by
  rw [sum_eq, sum_eq]
  exact sum_alterEntry c.ascending

/-- A cell that does not become full takes all that is added. -/
theorem sum_bump {c : Cells κ} {n : Nat} (room : c.sum + n ≤ countLimit) (k : κ) :
    (c.bump k n).sum = c.sum + n := by
  have hchange := c.sum_alter k fun m => min (m.getD 0 + n) countLimit
  have hcount : (c.get? k).getD 0 = c.count k := rfl
  have := c.count_le_sum k
  rw [hcount] at hchange
  rw [bump]
  omega

theorem fst_mem_alter {c : Cells κ} {k : κ} {f : Option Nat → Nat} {e : κ × Nat}
    (h : e ∈ (c.alter k f).entries) : e.1 = k ∨ e ∈ c.entries :=
  fst_mem_alterEntry h

/-- A stored cell is that of an entry. -/
theorem exists_mem_of_mem_ofEntries {es : List (κ × Nat)} {e : κ × Nat}
    (h : e ∈ (ofEntries es).entries) : ∃ d ∈ es, d.1 = e.1 := by
  rw [ofEntries] at h
  split at h
  · exact ⟨e, h, rfl⟩
  · clear * - h
    induction es with
    | nil => cases h
    | cons x xs ih =>
        rw [List.foldr_cons] at h
        rcases fst_mem_alter h with heq | hmem
        · exact ⟨x, List.mem_cons_self, heq.symm⟩
        · obtain ⟨d, hd, heq⟩ := ih hmem
          exact ⟨d, List.mem_cons_of_mem _ hd, heq⟩

end Cells

end

/-! ## Largest numbers -/

theorem Bin.le_max_left (a b : Bin) : a ≤ max a b := by
  have hmax : max a b = if a ≤ b then b else a := rfl
  rw [hmax]
  split
  · next h => exact h
  · exact UInt16.le_refl a

theorem Bin.le_max_right (a b : Bin) : b ≤ max a b := by
  have hmax : max a b = if a ≤ b then b else a := rfl
  rw [hmax]
  split
  · exact UInt16.le_refl b
  · next h => exact (UInt16.le_total a b).resolve_left h

section

variable {α : Type} {step : Bin → α → Bin}

theorem le_foldl (grows : ∀ m a, m ≤ step m a) (as : List α) (m : Bin) :
    m ≤ as.foldl step m := by
  induction as generalizing m with
  | nil => exact UInt16.le_refl m
  | cons a as ih => exact UInt16.le_trans (grows m a) (ih (step m a))

/-- What a step reaches is not lost by the steps after it. -/
theorem le_foldl_of_mem (grows : ∀ m a, m ≤ step m a) {as : List α} {a : α} (ha : a ∈ as)
    {b : Bin} (reaches : ∀ m, b ≤ step m a) (m : Bin) : b ≤ as.foldl step m := by
  induction as generalizing m with
  | nil => cases ha
  | cons x xs ih =>
      rcases List.mem_cons.1 ha with rfl | ha
      · exact UInt16.le_trans (reaches m) (le_foldl grows xs (step m a))
      · exact ih ha (step m x)

end

namespace RunLength

theorem le_highestBin {entries : List (Bin × Nat)} {e : Bin × Nat} (he : e ∈ entries) :
    e.1 ≤ highestBin entries :=
  le_foldl_of_mem (fun m a => Bin.le_max_left m a.1) he (fun m => Bin.le_max_right m e.1) 0

theorem le_highestPoint {entries : List (Point × Nat)} {e : Point × Nat} (he : e ∈ entries) :
    e.1.row ≤ highestPoint entries ∧ e.1.column ≤ highestPoint entries := by
  have grows : ∀ (m : Bin) (a : Point × Nat), m ≤ max (max m a.1.row) a.1.column := fun m a =>
    UInt16.le_trans (Bin.le_max_left m a.1.row) (Bin.le_max_left _ a.1.column)
  constructor
  · refine le_foldl_of_mem grows he (fun m => ?_) 0
    exact UInt16.le_trans (Bin.le_max_right m e.1.row) (Bin.le_max_left _ e.1.column)
  · exact le_foldl_of_mem grows he (fun m => Bin.le_max_right _ e.1.column) 0

end RunLength

/-! ## Counts -/

namespace Counts

/-- The sum of all counts. -/
def sum (c : Counts) : Nat := (c.entries.map Prod.snd).sum

theorem sum_line (cells : Cells Bin) : (line cells).sum = cells.sum := by
  rw [sum, entries, List.map_map, Cells.sum_eq]
  rfl

theorem sum_plane (cells touched : Cells Point) : (plane cells touched).sum = cells.sum := by
  rw [sum, entries, List.map_map, Cells.sum_eq]
  rfl

theorem total_eq (c : Counts) : c.total = min c.sum countLimit := by
  cases c with
  | line cells => rw [sum_line, total, Cells.total]
  | plane cells touched => rw [sum_plane, total, Cells.total]

theorem sum_zero (axes : Axes) : (zero axes).sum = 0 := by
  cases axes with
  | one => rfl
  | two => rfl

theorem sum_forgetTouched (c : Counts) : c.forgetTouched.sum = c.sum := by
  cases c with
  | line cells => rfl
  | plane cells touched => rfl

theorem sum_bump {c : Counts} {n : Nat} (room : c.sum + n ≤ countLimit) {coords : List Bin}
    (arity : coords.length = c.axes.dimensions) (buffered : Bool) :
    (c.bump buffered n coords).sum = c.sum + n := by
  cases c with
  | line cells =>
      obtain ⟨j, rfl⟩ := List.length_eq_one_iff.1 arity
      rw [sum_line] at room ⊢
      rw [bump, sum_line, Cells.sum_bump room]
  | plane cells touched =>
      obtain ⟨i, j, rfl⟩ := List.length_eq_two.1 arity
      rw [sum_plane] at room ⊢
      simp only [bump, sum_plane, Cells.sum_bump room]

/-- No stored cell has a number past a bound. -/
def Within (c : Counts) (m : Bin) : Prop := ∀ e ∈ c.entries, ∀ b ∈ e.1, b ≤ m

theorem within_line {cells : Cells Bin} {m : Bin} :
    (line cells).Within m ↔ ∀ e ∈ cells.entries, e.1 ≤ m := by
  simp only [Within, entries, List.forall_mem_map, List.forall_mem_singleton]

theorem within_plane {cells touched : Cells Point} {m : Bin} :
    (plane cells touched).Within m ↔ ∀ e ∈ cells.entries, e.1.row ≤ m ∧ e.1.column ≤ m := by
  simp only [Within, entries, coordinates, List.forall_mem_map, List.forall_mem_cons,
    List.not_mem_nil, false_imp_iff, implies_true, and_true]

theorem within_line_ofEntries {entries : List (Bin × Nat)} {m : Bin}
    (h : ∀ e ∈ entries, e.1 ≤ m) : (line (Cells.ofEntries entries)).Within m := by
  refine within_line.2 fun e he => ?_
  obtain ⟨d, hd, heq⟩ := Cells.exists_mem_of_mem_ofEntries he
  exact heq ▸ h d hd

theorem within_plane_ofEntries {entries : List (Point × Nat)} {touched : Cells Point} {m : Bin}
    (h : ∀ e ∈ entries, e.1.row ≤ m ∧ e.1.column ≤ m) :
    (plane (Cells.ofEntries entries) touched).Within m := by
  refine within_plane.2 fun e he => ?_
  obtain ⟨d, hd, heq⟩ := Cells.exists_mem_of_mem_ofEntries he
  exact heq ▸ h d hd

theorem within_zero (axes : Axes) (m : Bin) : (zero axes).Within m := by
  cases axes with
  | one => exact within_line.2 fun e he => nomatch he
  | two => exact within_plane.2 fun e he => nomatch he

theorem Within.forgetTouched {c : Counts} {m : Bin} (h : c.Within m) :
    c.forgetTouched.Within m := by
  cases c with
  | line cells => exact h
  | plane cells touched => exact h

/-- A cell that is raised lies within the largest number met. -/
theorem Within.bump {c : Counts} {m : Bin} (h : c.Within m) (buffered : Bool) (n : Nat)
    (coords : List Bin) : (c.bump buffered n coords).Within (coords.foldl max m) := by
  have grows : ∀ m b : Bin, m ≤ max m b := Bin.le_max_left
  have old : ∀ {b : Bin}, b ≤ m → b ≤ coords.foldl max m := fun hb =>
    UInt16.le_trans hb (le_foldl grows coords m)
  have met : ∀ {b : Bin}, b ∈ coords → b ≤ coords.foldl max m := fun {b} hb =>
    le_foldl_of_mem grows hb (fun m => Bin.le_max_right m b) m
  unfold Counts.bump
  split
  · next cells j =>
      rw [within_line] at h ⊢
      intro e he
      rcases Cells.fst_mem_alter he with heq | hmem
      · exact met (by simp [heq])
      · exact old (h e hmem)
  · next cells touched i j =>
      rw [within_plane] at h ⊢
      intro e he
      rcases Cells.fst_mem_alter he with heq | hmem
      · exact ⟨met (by simp [heq]), met (by simp [heq])⟩
      · exact ⟨old (h e hmem).1, old (h e hmem).2⟩
  · exact fun e he b hb => old (h e he b hb)

/-- What a text is read as: cells of the entries it names, and the largest number of those. -/
theorem ofText_eq_ok {axes : Axes} {text : List Char} {c : Counts} {m : Bin}
    (h : ofText axes text = .ok (c, m)) :
    (∃ entries, RunLength.decodeBins 0 (RunLength.numbered text) = .ok entries ∧ axes = .one ∧
        c = .line (.ofEntries entries) ∧ m = RunLength.highestBin entries) ∨
      ∃ entries, RunLength.decodePoints 0 0 (RunLength.numbered text) = .ok entries ∧
        axes = .two ∧ c = .plane (.ofEntries entries) ∅ ∧ m = RunLength.highestPoint entries := by
  cases axes with
  | one =>
      rw [ofText, RunLength.decode₁] at h
      cases hentries : RunLength.decodeBins 0 (RunLength.numbered text) with
      | error fault =>
          rw [hentries] at h
          cases h
      | ok entries =>
          rw [hentries] at h
          cases h
          exact .inl ⟨entries, rfl, rfl, rfl, rfl⟩
  | two =>
      rw [ofText, RunLength.decode₂] at h
      cases hentries : RunLength.decodePoints 0 0 (RunLength.numbered text) with
      | error fault =>
          rw [hentries] at h
          cases h
      | ok entries =>
          rw [hentries] at h
          cases h
          exact .inr ⟨entries, rfl, rfl, rfl, rfl⟩

theorem ofText_one_eq_ok_iff {text : List Char} {c : Counts} {m : Bin} :
    ofText .one text = .ok (c, m) ↔
      ∃ bins, RunLength.decode₁ text = .ok (bins, m) ∧ c = .line bins := by
  rw [ofText]
  constructor
  · intro h
    cases hread : RunLength.decode₁ text with
    | error fault =>
        rw [hread] at h
        cases h
    | ok read =>
        rw [hread] at h
        cases h
        exact ⟨_, rfl, rfl⟩
  · rintro ⟨bins, hread, rfl⟩
    rw [hread]
    rfl

theorem ofText_two_eq_ok_iff {text : List Char} {c : Counts} {m : Bin} :
    ofText .two text = .ok (c, m) ↔
      ∃ points, RunLength.decode₂ text = .ok (points, m) ∧ c = .plane points ∅ := by
  rw [ofText]
  constructor
  · intro h
    cases hread : RunLength.decode₂ text with
    | error fault =>
        rw [hread] at h
        cases h
    | ok read =>
        rw [hread] at h
        cases h
        exact ⟨_, rfl, rfl⟩
  · rintro ⟨points, hread, rfl⟩
    rw [hread]
    rfl

/-- The cells of a text lie within the largest number it comes with. -/
theorem within_ofText {axes : Axes} {text : List Char} {c : Counts} {m : Bin}
    (h : ofText axes text = .ok (c, m)) : c.Within m := by
  rcases ofText_eq_ok h with ⟨entries, -, -, rfl, rfl⟩ | ⟨entries, -, -, rfl, rfl⟩
  · exact within_line_ofEntries fun e he => RunLength.le_highestBin he
  · exact within_plane_ofEntries fun e he => RunLength.le_highestPoint he

end Counts

/-! ## Counts from files -/

namespace Listing

/-- A token is a time, or the count of the next bin. -/
theorem readToken_cases {p q : Progress} {line : Nat} {token : List Char}
    (h : readToken p line token = .ok q) :
    q.entries = p.entries ∧ q.bins = p.bins ∨
      ∃ n, Text.natural? 64 token = some n ∧ p.bins < UInt16.size ∧ q.bins = p.bins + 1 ∧
        q.entries = if n = 0 then p.entries else (UInt16.ofNat p.bins, n) :: p.entries := by
  unfold readToken at h
  split at h
  · split at h
    · cases h
      exact .inl ⟨rfl, rfl⟩
    · cases h
  · split at h
    · split at h
      · cases h
        exact .inl ⟨rfl, rfl⟩
      · cases h
    · split at h
      · cases h
      · next n hn =>
          split at h
          · next room =>
              cases h
              exact .inr ⟨n, hn, room, rfl, rfl⟩
          · cases h

/-- What every token keeps is kept to the end of the lines. -/
theorem readLines_keeps {P : Progress → Prop}
    (keeps : ∀ {p q : Progress} {line : Nat} {token : List Char},
      readToken p line token = .ok q → P p → P q)
    {lines : List (List UInt8)} : ∀ {p q : Progress} {line : Nat},
      readLines p line lines = .ok q → P p → P q := by
  induction lines with
  | nil =>
      intro p q line h hp
      cases h
      exact hp
  | cons bytes lines ih =>
      intro p q line h hp
      rw [readLines] at h
      split at h
      · next r hfirst =>
          refine ih h ?_
          unfold readLine at hfirst
          split at hfirst
          · cases hfirst
          · dsimp only at hfirst
            split at hfirst
            · cases hfirst
              exact hp
            · split at hfirst
              · next htoken =>
                  cases hfirst
                  exact keeps htoken hp
              · cases hfirst
      · cases h

theorem read_eq_ok {bytes : List UInt8} {l : Listing} (h : read bytes = .ok l) :
    ∃ p : Progress, readLines {} 0 (Text.lines bytes) = .ok p ∧ p.listing = l := by
  rw [read] at h
  cases hread : readLines {} 0 (Text.lines bytes) with
  | error fault =>
      rw [hread] at h
      cases h
  | ok p =>
      rw [hread] at h
      exact ⟨p, rfl, Except.ok.inj h⟩

/-- The bins listed so far are numbered from 0 on, and all of them have a number. -/
structure Progress.Numbered (p : Progress) : Prop where
  bins : p.bins ≤ UInt16.size
  entries : ∀ e ∈ p.entries, e.1.toNat < p.bins

theorem Progress.Numbered.readToken {p q : Progress} {line : Nat} {token : List Char}
    (h : readToken p line token = .ok q) (hp : p.Numbered) : q.Numbered := by
  rcases readToken_cases h with ⟨entries, bins⟩ | ⟨n, -, room, bins, entries⟩
  · exact ⟨bins ▸ hp.bins, by rw [entries, bins]; exact hp.entries⟩
  · have later : ∀ e ∈ p.entries, e.1.toNat < p.bins + 1 := fun e he =>
      Nat.lt_succ_of_lt (hp.entries e he)
    refine ⟨bins ▸ room, fun e he => ?_⟩
    rw [entries] at he
    rw [bins]
    split at he
    · exact later e he
    · rcases List.mem_cons.1 he with rfl | he
      · rw [UInt16.toNat_ofNat_of_lt' room]
        exact Nat.lt_succ_self _
      · exact later e he

/-- The cells of a listing lie within its last bin. -/
theorem within_read {bytes : List UInt8} {l : Listing} (h : read bytes = .ok l) :
    (Counts.line l.cells).Within l.lastBin := by
  obtain ⟨p, hread, rfl⟩ := read_eq_ok h
  have start : Progress.Numbered {} := ⟨Nat.zero_le _, fun e he => nomatch he⟩
  obtain ⟨bins, entries⟩ := readLines_keeps Progress.Numbered.readToken hread start
  refine Counts.within_line_ofEntries fun e he => UInt16.le_iff_toNat_le.2 ?_
  have hlt := entries e (List.mem_reverse.1 he)
  have last : p.listing.lastBin.toNat = p.bins - 1 :=
    UInt16.toNat_ofNat_of_lt' (by omega)
  rw [last]
  omega

end Listing

end ListMode
