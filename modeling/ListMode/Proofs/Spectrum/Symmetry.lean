import ListMode.Proofs.Export.Recoding
import ListMode.Proofs.Spectrum.RangeReads

/-!
# The check of symmetry

The check compares what is stored on the two sides of the diagonal, so it also tells a cell that
is stored with a zero from one that is not stored.  It says whether the counts are the same on
both sides and the cells that are stored with a zero as well (`Spectrum.symmetry_checked`).

Cells that are stored with a zero come from texts only.  What is added to a cell is never
nothing, and neither a grid nor a listing stores a cell without a count, so every stored cell has
a count (`Counts.Populated`) as long as no text has a count token that says zero
(`Spectrum.populated_applyAll`).  Then the check says whether the counts are symmetric.
-/

namespace ListMode

open RunLength (countTokens)
open Text (natural?)

namespace Counts

/-! ## Stored cells that have a count -/

/-- Every stored cell has a count. -/
def Populated (c : Counts) : Prop := ∀ e ∈ c.entries, e.2 ≠ 0

variable {c d : Counts} {coords : List Bin}

theorem populated_line {cells : Cells Bin} :
    (line cells).Populated ↔ ∀ e ∈ cells.entries, e.2 ≠ 0 := by
  simp only [Populated, entries, List.forall_mem_map]

theorem populated_plane {cells touched : Cells Point} :
    (plane cells touched).Populated ↔ ∀ e ∈ cells.entries, e.2 ≠ 0 := by
  simp only [Populated, entries, List.forall_mem_map]

theorem populated_iff : c.Populated ↔ ∀ coords, c.stored? coords ≠ some 0 := by
  constructor
  · intro h coords zero
    exact h _ (mem_entries.2 zero) rfl
  · rintro h ⟨coords, n⟩ he rfl
    exact h coords (mem_entries.1 he)

theorem populated_zero (axes : Axes) : (zero axes).Populated := by
  cases axes with
  | one => exact List.forall_mem_nil _
  | two => exact List.forall_mem_nil _

theorem Populated.forgetTouched (h : c.Populated) : c.forgetTouched.Populated := by
  cases c with
  | line cells => exact h
  | plane cells touched => exact h

/-- A cell that has more counts than before has some. -/
theorem Raised.stored_ne_zero {buffered : Bool} (h : Raised buffered c d coords) :
    d.stored? coords ≠ some 0 := by
  obtain ⟨k, stored⟩ := h.stored
  have limit : 0 < countLimit := by decide
  rw [stored]
  intro zero
  have zero := Option.some.inj zero
  omega

/-- Counts of a text without a count token that says zero. -/
theorem populated_ofText {axes : Axes} {text : List Char} {m : Bin}
    (h : ofText axes text = .ok (c, m))
    (said : ∀ token ∈ countTokens axes text, natural? 64 token ≠ some 0) : c.Populated := by
  cases axes with
  | one =>
      obtain ⟨bins, read, rfl⟩ := ofText_one_eq_ok_iff.1 h
      exact populated_line.2 (RunLength.populated_decode₁ read said)
  | two =>
      obtain ⟨points, read, rfl⟩ := ofText_two_eq_ok_iff.1 h
      exact populated_plane.2 (RunLength.populated_decode₂ read said)

end Counts

theorem Listing.populated_read {bytes : List UInt8} {l : Listing} (h : read bytes = .ok l) :
    (Counts.line l.cells).Populated := by
  obtain ⟨p, hread, rfl⟩ := read_eq_ok h
  have step : ∀ {p q : Progress} {line : Nat} {token : List Char},
      readToken p line token = .ok q → (∀ e ∈ p.entries, e.2 ≠ 0) → ∀ e ∈ q.entries, e.2 ≠ 0 := by
    intro p q line token htoken populated
    rcases readToken_cases htoken with ⟨entries, -⟩ | ⟨n, -, -, -, entries⟩
    · exact entries ▸ populated
    · rw [entries]
      split
      · exact populated
      · next some_counts => exact List.forall_mem_cons.2 ⟨some_counts, populated⟩
  have populated := readLines_keeps step hread (List.forall_mem_nil _)
  exact Counts.populated_line.2 fun e he =>
    populated e (List.mem_reverse.1 (Cells.mem_of_mem_ofEntries he))

theorem Dense.populated_read {bytes : ByteArray} {width : CellWidth} {cells : Cells Point}
    {side : Nat} (h : read bytes width = .ok (cells, side)) : (Counts.plane cells ∅).Populated := by
  obtain ⟨⟨k, -, hhigh, rfl, -⟩, hentries⟩ := read_eq_ok_iff.1 h
  refine Counts.populated_plane.2 fun e he => ?_
  rw [hentries] at he
  exact ((mem_populated (size_of_side hhigh)).1 he).2.2

namespace Spectrum

variable {axes : Axes} {s t : Spectrum} {op : Operation}

/-! ## Operations -/

/-- The operation reads no text with a count token that says zero. -/
def Operation.NamesCounts (axes : Axes) : Operation → Prop
  | .readText text => ∀ token ∈ countTokens axes text, natural? 64 token ≠ some 0
  | _ => True

theorem Replaces.populated (h : s.Replaces op t) (names : op.NamesCounts s.axes) :
    t.counts.Populated := by
  cases h with
  | setUp h =>
      obtain ⟨-, rfl⟩ := setUp_eq_ok h
      exact Counts.populated_zero _
  | reset => exact Counts.populated_zero _
  | readText h =>
      obtain ⟨_, _, htext, rfl⟩ := readText_eq_ok h
      exact Counts.populated_ofText htext names
  | load h =>
      rcases load_eq_ok h with ⟨_, _, -, hread, rfl⟩ | ⟨_, _, _, _, -, hread, rfl⟩
      · exact Listing.populated_read hread
      · exact Dense.populated_read hread

/-- An operation stores no cell without a count, unless it reads one from a text. -/
theorem populated_apply (h : s.counts.Populated) (names : op.NamesCounts s.axes) :
    (s.apply op).counts.Populated := by
  cases effect s op with
  | adds adds =>
      rw [Counts.populated_iff] at h ⊢
      intro coords
      rcases cells_apply (s := s) adds coords with kept | ⟨-, raised⟩
      · rw [kept.stored]
        exact h coords
      · exact raised.stored_ne_zero
  | reads bounds read =>
      subst read
      rw [apply, readRange]
      split
      · exact h.forgetTouched
      · exact h
  | replaces replaced => exact replaced.populated names
  | leaves alike =>
      rw [alike.counts]
      exact h

theorem populated_applyAll (bounded : s.Bounded axes) (h : s.counts.Populated)
    {ops : List Operation} (names : ∀ op ∈ ops, op.NamesCounts axes) :
    (s.applyAll ops).counts.Populated := by
  induction ops generalizing s with
  | nil => exact h
  | cons op ops ih =>
      rw [List.forall_mem_cons] at names
      exact ih (bounded.apply op) (populated_apply h (bounded.axes ▸ names.1)) names.2

/-! ## The check -/

/-- Only a zero has the count of a number that is missing. -/
theorem eq_iff_getD_eq {a b : Option Nat} :
    a = b ↔ a.getD 0 = b.getD 0 ∧ (a = some 0 ↔ b = some 0) := by
  cases a with
  | none => cases b with
    | none => simp
    | some n => simp [eq_comm]
  | some m => cases b with
    | none => simp
    | some n => simp +contextual

/-- The same is stored on both sides of the diagonal if and only if the counts are the same and
what is stored with a zero. -/
theorem mirrored_iff (c : Counts) :
    (∀ i j, c.stored? [i, j] = c.stored? [j, i]) ↔
      (∀ i j, c.count [i, j] = c.count [j, i]) ∧
        ∀ i j, c.stored? [i, j] = some 0 → c.stored? [j, i] = some 0 := by
  have zeros : (∀ i j, c.stored? [i, j] = some 0 → c.stored? [j, i] = some 0) ↔
      ∀ i j, c.stored? [i, j] = some 0 ↔ c.stored? [j, i] = some 0 :=
    ⟨fun h i j => ⟨h i j, h j i⟩, fun h i j => (h i j).1⟩
  simp only [zeros, ← forall_and]
  refine forall₂_congr fun i j => ?_
  rw [Counts.count_eq, Counts.count_eq]
  exact eq_iff_getD_eq

/-- A spectrum with two axes is found symmetric if and only if the same is stored on both sides of
the diagonal.  The check does not change what it looks at. -/
theorem checkSymmetry_two (two : s.axes = .two) :
    ∃ b,
      s.checkSymmetry =
        (some b, { s with metadata := { s.metadata with symmetric := some b } }) ∧
      s.checkSymmetry.2.checkSymmetry = s.checkSymmetry ∧
      (b = true ↔ ∀ i j, s.counts.stored? [i, j] = s.counts.stored? [j, i]) := by
  obtain ⟨m, counts, builder, ready⟩ := s
  cases counts with
  | line cells => cases two
  | plane cells touched =>
      have symmetric : Counts.symmetric? (.plane cells touched) = some true ↔ _ :=
        Counts.symmetric?_plane
      refine ⟨_, rfl, rfl, ?_⟩
      rw [← Option.some_inj]
      exact symmetric.trans ⟨fun h i j => h ⟨i, j⟩, fun h p => h p.row p.column⟩

/-- Whatever was done with a spectrum with two axes, the check keeps its result, changes nothing
else and gives the same when it is repeated.  It says whether the counts are the same on both
sides of the diagonal and so are the cells that are stored with a zero.  As long as no text had a
count token that says zero, it says whether the counts are the same. -/
theorem symmetry_checked (ops : List Operation) :
    let s := (blank .two).applyAll ops
    ∃ b,
      s.checkSymmetry =
        (some b, { s with metadata := { s.metadata with symmetric := some b } }) ∧
      s.checkSymmetry.2.checkSymmetry = s.checkSymmetry ∧
      (b = true ↔ (∀ i j, s.counts.count [i, j] = s.counts.count [j, i]) ∧
        ∀ i j, s.counts.stored? [i, j] = some 0 → s.counts.stored? [j, i] = some 0) ∧
      ((∀ op ∈ ops, op.NamesCounts .two) →
        (b = true ↔ ∀ i j, s.counts.count [i, j] = s.counts.count [j, i])) := by
  intro s
  have bounded := bounded_blank .two
  obtain ⟨b, checked, again, symmetric⟩ := checkSymmetry_two (bounded.applyAll ops).axes
  rw [mirrored_iff] at symmetric
  refine ⟨b, checked, again, symmetric, fun names => symmetric.trans (and_iff_left ?_)⟩
  have populated := populated_applyAll bounded (Counts.populated_zero .two) names
  exact fun i j zero => absurd zero (Counts.populated_iff.1 populated [i, j])

/-- A coincidence, a text with a cell on the diagonal, and the two sides of it by hand. -/
def mirroredOperations : List Operation :=
  [.setUp planeSetup,
    .feed (.push { hits := [strike 0 100 0x1234, strike 1 105 0x3000] }),
    .readText "+ 3 0 3 012 0 4 5 + 5 0 3 5".toList,
    .append [2, 9] 7,
    .append [9, 2] 7]

theorem symmetry_checked_mirrored :
    (∀ op ∈ mirroredOperations, op.NamesCounts .two) ∧
      let s := (blank .two).applyAll mirroredOperations
      s.checkSymmetry.1 = some true ∧ s.counts.count [3, 8] = 5 ∧
        ∀ i j, s.counts.count [i, j] = s.counts.count [j, i] := by
  have names : ∀ op ∈ mirroredOperations, op.NamesCounts .two := by
    simp only [mirroredOperations, List.forall_mem_cons, List.not_mem_nil, false_imp_iff,
      implies_true, Operation.NamesCounts, true_and, and_true]
    decide +kernel
  have checked : ((blank .two).applyAll mirroredOperations).checkSymmetry.1 = some true := by
    decide +kernel
  obtain ⟨b, result, -, -, counts⟩ := symmetry_checked mirroredOperations
  rw [result] at checked
  obtain rfl := Option.some.inj checked
  exact ⟨names, by rw [result], by decide +kernel, (counts names).1 rfl⟩

/-- A cell that a text stores with a zero is taken for a difference, where all counts are zero. -/
theorem zero_found_asymmetric :
    let s := (blank .two).applyAll [.setUp planeSetup, .readText "0 1 00".toList]
    (∀ i j, s.counts.count [i, j] = s.counts.count [j, i]) ∧ s.checkSymmetry.1 = some false := by
  intro s
  have entries : s.counts.entries = [([0, 1], 0)] := by decide +kernel
  have zero : ∀ coords, s.counts.count coords = 0 := by
    intro coords
    by_contra populated
    have stored := Counts.mem_entries_of_count_ne_zero populated
    rw [entries, List.mem_singleton] at stored
    exact populated (Prod.mk.inj stored).2
  exact ⟨fun i j => (zero _).trans (zero _).symm, by decide +kernel⟩

end Spectrum

end ListMode
