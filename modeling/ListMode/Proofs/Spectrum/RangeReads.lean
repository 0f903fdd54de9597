import ListMode.Proofs.Hit.Layout
import ListMode.Proofs.Spectrum.GatedCounts
import ListMode.Proofs.Spectrum.Growth

/-!
# Range reads

A read gives cells in ascending order (`Spectrum.ascending_readRange`).  A read without
ranges gives those of the stored cells that the resolution has bins for
(`Spectrum.full_read_complete`).

Hits never fill a cell past the resolution, since their values fit their widths
(`Hit.LaidOut.fits`), and no file does, since it comes with a resolution of its own.  An
entry and a text may fill any cell, whatever the resolution.  As long as they name no bin
past it (`Spectrum.FillsInside`), no cell lies past it (`Spectrum.Contained`), and a read
without ranges is complete.
-/

namespace ListMode

open Coincidence (Builder Event hitsOf hitsOf_append)
open Coordinate (index)

/-! ## Entries in order -/

namespace Counts

theorem ascending_line (cells : Cells Bin) :
    (cells.entries.map fun e => ([e.1], e.2)).Pairwise fun a b => a.1 < b.1 := by
  refine List.pairwise_map.2 (cells.ascending.imp fun {a b} lt => ?_)
  exact List.cons_lt_cons_iff.2 (.inl (UInt16.lt_iff_toNat_lt.2 lt))

theorem ascending_points (cells : Cells Point) :
    (cells.entries.map fun e => (coordinates e.1, e.2)).Pairwise fun a b => a.1 < b.1 := by
  refine List.pairwise_map.2 (cells.ascending.imp fun {a b} lt => List.cons_lt_cons_iff.2 ?_)
  rcases Point.index_lt.1 lt with row | ⟨row, column⟩
  · exact .inl (UInt16.lt_iff_toNat_lt.2 row)
  · refine .inr ⟨UInt16.toNat_inj.1 row, List.cons_lt_cons_iff.2 (.inl ?_)⟩
    exact UInt16.lt_iff_toNat_lt.2 column

/-- The stored cells are listed in ascending order, each once. -/
theorem ascending_entries (c : Counts) : c.entries.Pairwise fun a b => a.1 < b.1 := by
  cases c with
  | line cells => exact ascending_line cells
  | plane cells touched => exact ascending_points cells

theorem ascending_touchedEntries (c : Counts) :
    c.touchedEntries.Pairwise fun a b => a.1 < b.1 := by
  cases c with
  | line cells => exact .nil
  | plane cells touched => exact ascending_points touched

theorem entries_forgetTouched (c : Counts) : c.forgetTouched.entries = c.entries := by
  cases c with
  | line cells => rfl
  | plane cells touched => rfl

theorem length_of_mem_entries {c : Counts} {e : List Bin × Nat} (h : e ∈ c.entries) :
    e.1.length = c.axes.dimensions := by
  cases c with
  | line cells =>
      obtain ⟨d, -, rfl⟩ := List.mem_map.1 h
      rfl
  | plane cells touched =>
      obtain ⟨d, -, rfl⟩ := List.mem_map.1 h
      rfl

theorem count_of_mem_entries {c : Counts} {e : List Bin × Nat} (h : e ∈ c.entries) :
    c.count e.1 = e.2 := by
  rw [count_eq, mem_entries.1 h, Option.getD_some]

theorem mem_entries_of_count_ne_zero {c : Counts} {coords : List Bin}
    (populated : c.count coords ≠ 0) : (coords, c.count coords) ∈ c.entries := by
  rw [mem_entries]
  rw [count_eq] at populated ⊢
  cases stored : c.stored? coords with
  | none =>
      rw [stored] at populated
      exact absurd rfl populated
  | some n => rfl

end Counts

/-- A part of the entries has the sum of all if and only if the others are zero. -/
theorem sum_filter_eq_iff {α : Type} (p : α × Nat → Bool) (es : List (α × Nat)) :
    ((es.filter p).map Prod.snd).sum = (es.map Prod.snd).sum ↔
      ∀ e ∈ es, p e = false → e.2 = 0 := by
  have parts : ((es.filter p).map Prod.snd).sum +
      ((es.filter fun e => !p e).map Prod.snd).sum = (es.map Prod.snd).sum := by
    rw [← List.sum_append_nat, ← List.map_append]
    exact ((List.filter_append_perm p es).map Prod.snd).sum_nat
  have none_left : ((es.filter fun e => !p e).map Prod.snd).sum = 0 ↔
      ∀ e ∈ es, p e = false → e.2 = 0 := by
    simp only [List.sum_eq_zero_iff, List.forall_mem_map, List.mem_filter, Bool.not_eq_true',
      and_imp]
  rw [← none_left]
  omega

/-! ## The bins of an axis -/

theorem Metadata.resolution_eq {m : Metadata} (usable : m.bits ≤ 16) :
    m.resolution = 2 ^ m.bits := by
  rw [resolution, Nat.min_eq_left usable, Nat.one_shiftLeft]

/-- All axes have a bin for the number that a cell has on them. -/
theorem holdsAll_replicate (r : Nat) (coords : List Bin) :
    holdsAll (List.replicate coords.length ⟨0, r⟩) coords = true ↔
      ∀ b ∈ coords, b.toNat < r := by
  induction coords with
  | nil => simp [holdsAll]
  | cons b coords ih =>
      have first : holdsAll (List.replicate (b :: coords).length ⟨0, r⟩) (b :: coords) =
          (BinRange.holds ⟨0, r⟩ b && holdsAll (List.replicate coords.length ⟨0, r⟩) coords) :=
        rfl
      rw [first, Bool.and_eq_true, ih, List.forall_mem_cons]
      simp [BinRange.holds]

theorem Digitized.fits_ofRaw (raw : UInt16) {bits : Nat} (usable : bits ≤ 16) :
    (ofRaw raw bits).Fits where
  width := usable
  sample := by
    rw [ofRaw, Nat.min_eq_left usable, Nat.one_shiftLeft, UInt16.toNat_ofNat']
    exact Nat.lt_of_le_of_lt (Nat.mod_le _ _) (Nat.mod_lt _ (Nat.two_pow_pos bits))

/-- The values of every hit that a model lays out fit, and so does a value that is missing. -/
theorem Hit.LaidOut.fits {m : HitModel} {h : Hit} (laid : h.LaidOut m)
    (usable : ∀ f ∈ m.fields, UsableWidth f.bits) (i : Nat) : (h.value i).Fits := by
  rw [value]
  cases found : h.values[i]? with
  | none => exact ⟨Nat.zero_le _, Nat.zero_lt_one⟩
  | some v =>
      obtain ⟨hi, rfl⟩ := List.getElem?_eq_some_iff.1 found
      have field : i < m.fields.length := laid.values.length_eq ▸ hi
      have cut : h.values[i] = Digitized.ofRaw h.values[i].raw m.fields[i].bits :=
        laid.values.get field hi
      rw [Option.getD_some, cut]
      exact Digitized.fits_ofRaw _ (usable _ (List.getElem_mem field)).2

/-- An axis reads no hit past its resolution. -/
theorem Counts.axisBin?_lt {e : Event} {channel bits : Nat} (usable : bits ≤ 16)
    (fits : ∀ h ∈ e.hits, (h.value 0).Fits) {b : Bin} (found : axisBin? e channel bits = some b) :
    b.toNat < 2 ^ bits := by
  obtain ⟨h, hit, rfl⟩ := Option.map_eq_some_iff.1 found
  have fits := fits h (Event.of_hit? hit).1
  rw [fits.toNat_rescale usable]
  exact fits.shifted_lt bits

/-- No event is counted past the resolution. -/
theorem Metadata.cellFor?_lt {m : Metadata} {axes : Axes} {e : Event} (usable : m.bits ≤ 16)
    (fits : ∀ h ∈ e.hits, (h.value 0).Fits) {coords : List Bin}
    (cell : m.cellFor? axes e = some coords) : ∀ b ∈ coords, b.toNat < 2 ^ m.bits := by
  have read : ∀ channel, ((Counts.axisBin? e channel m.bits).getD 0).toNat < 2 ^ m.bits := by
    intro channel
    cases found : Counts.axisBin? e channel m.bits with
    | none => exact Nat.two_pow_pos _
    | some b => exact Counts.axisBin?_lt usable fits found
  rw [cellFor?] at cell
  split at cell
  · cases axes with
    | one =>
        obtain ⟨b, found, rfl⟩ := Option.map_eq_some_iff.1 cell
        rw [List.forall_mem_singleton]
        exact Counts.axisBin?_lt usable fits found
    | two =>
        rw [Counts.cellOf?] at cell
        split at cell
        · cases cell
        · cases cell
          rw [List.forall_mem_cons, List.forall_mem_singleton]
          exact ⟨read _, read _⟩
  · cases cell

namespace Spectrum

variable {s t : Spectrum} {op : Operation} {bounds : List BinRange}

/-! ## What a read gives -/

theorem ascending_readRange (s : Spectrum) (bounds : List BinRange) :
    (s.readRange bounds).1.Pairwise fun a b => a.1 < b.1 := by
  rw [readRange]
  split
  · exact s.counts.ascending_touchedEntries.filter _
  · exact s.counts.ascending_entries.filter _

theorem readRange_plain (plain : s.readsTouched = false) (bounds : List BinRange) :
    (s.readRange bounds).1 =
      s.counts.entries.filter fun e => holdsAll (s.effectiveBounds bounds) e.1 := by
  rw [readRange, plain]
  rfl

theorem readRange_touched (buffered : s.readsTouched = true) (bounds : List BinRange) :
    (s.readRange bounds).1 =
      s.counts.touchedEntries.filter fun e => holdsAll (s.effectiveBounds bounds) e.1 := by
  rw [readRange, buffered]
  rfl

/-- The resolution has a bin for the number that a cell has on each axis. -/
def HasBins (s : Spectrum) (coords : List Bin) : Prop := ∀ b ∈ coords, b.toNat < 2 ^ s.metadata.bits

instance (s : Spectrum) (coords : List Bin) : Decidable (s.HasBins coords) :=
  List.decidableBAll (fun b : Bin => b.toNat < 2 ^ s.metadata.bits) coords

/-- Without ranges a read is one of all bins. -/
theorem holdsAll_effectiveBounds_nil (usable : s.metadata.bits ≤ 16) {coords : List Bin}
    (arity : coords.length = s.axes.dimensions) :
    holdsAll (s.effectiveBounds []) coords = true ↔ s.HasBins coords := by
  have none_fit : ([] : List BinRange).length ≠ s.axes.dimensions := by
    cases s.axes with
    | one => decide
    | two => decide
  rw [effectiveBounds, if_neg none_fit, fullRange, Metadata.resolution_eq usable, ← arity]
  exact holdsAll_replicate _ coords

/-! ## The resolution -/

theorem log2_le {n k : Nat} (h : n < 2 ^ (k + 1)) : n.log2 ≤ k := by
  cases n with
  | zero =>
      rw [Nat.log2_zero]
      exact Nat.zero_le k
  | succ n => exact Nat.lt_succ_iff.1 ((Nat.log2_lt (Nat.succ_ne_zero n)).2 h)

theorem Replaces.bits_le (h : s.Replaces op t) (usable : s.metadata.bits ≤ 16) :
    t.metadata.bits ≤ 16 := by
  cases h with
  | setUp h =>
      obtain ⟨-, rfl⟩ := setUp_eq_ok h
      exact (usableWidth_of_setUp h).2
  | reset => exact usable
  | readText h =>
      obtain ⟨_, _, -, rfl⟩ := readText_eq_ok h
      exact usable
  | load h =>
      rcases load_eq_ok h with ⟨_, l, -, -, rfl⟩ | ⟨_, _, _, side, -, hread, rfl⟩
      · exact Nat.succ_le_succ (log2_le l.lastBin.toNat_lt)
      · obtain ⟨⟨k, -, hk, rfl, -⟩, -⟩ := Dense.read_eq_ok_iff.1 hread
        show (2 ^ k).log2 ≤ 16
        rw [Nat.log2_two_pow]
        omega

theorem bits_apply (usable : s.metadata.bits ≤ 16) : (s.apply op).metadata.bits ≤ 16 := by
  cases effect s op with
  | adds adds =>
      rw [bits_of_adds adds]
      exact usable
  | reads bounds h =>
      subst h
      rw [apply, readRange]
      split
      · exact usable
      · exact usable
  | replaces h => exact h.bits_le usable
  | leaves alike =>
      rw [alike.metadata]
      exact usable

/-- Whatever is done with a spectrum, its resolution has no more than 16 bits. -/
theorem bits_applyAll (usable : s.metadata.bits ≤ 16) (ops : List Operation) :
    (s.applyAll ops).metadata.bits ≤ 16 := by
  induction ops generalizing s with
  | nil => exact usable
  | cons op ops ih => exact ih (bits_apply usable)

/-! ## Cells inside the resolution -/

/-- No cell lies past the resolution, and no open hit can fill one that does. -/
structure Contained (s : Spectrum) : Prop where
  cells : ∀ e ∈ s.counts.entries, s.HasBins e.1
  hits : ∀ h ∈ hitsOf s.builder.opened, (h.value 0).Fits

/-- The operation brings hits of which the values fit their widths, and an entry or a text
that names no bin past the resolution. -/
def FillsInside (s : Spectrum) : Operation → Prop
  | .feed call => ∀ h ∈ call.hits, (h.value 0).Fits
  | .append coords _ => s.HasBins coords
  | .readText text =>
      ∀ t, s.readText text = .ok t → t.metadata.maxBin.toNat < 2 ^ s.metadata.bits
  | _ => True

/-- The hits of the events that a call closes or leaves open were open before or come with
the call. -/
theorem mem_hits_feed {call : Feed} {h : Hit}
    (hh : h ∈ hitsOf (s.closes call ++ (s.feed call).builder.opened)) :
    h ∈ call.hits ∨ h ∈ hitsOf s.builder.opened := by
  have fed : ∀ b : Builder, b.opened = (s.builder.feed (takes s.metadata) call).1.opened →
      h ∈ hitsOf ((s.builder.feed (takes s.metadata) call).2 ++ b.opened) →
        h ∈ call.hits ∨ h ∈ hitsOf s.builder.opened := by
    intro b opened member
    rw [opened, (Builder.hitsOf_feed_perm _ _ _).mem_iff, List.mem_append] at member
    exact member.imp_left fun h => (List.mem_filter.1 (List.mem_filter.1 h).1).1
  cases call with
  | flush => exact fed _ (congrArg Builder.opened (flush_counted s).builder) hh
  | push spill =>
      cases ready : s.ready with
      | true =>
          rw [closes, ready, if_pos rfl] at hh
          exact fed _ (congrArg Builder.opened (feed_counted ready (.push spill)).builder) hh
      | false =>
          have ignored : s.feed (.push spill) = s := by simp [feed, push, ready]
          rw [closes, ready, ignored] at hh
          exact .inr hh

theorem contained_of_zero (axes : Axes) (counts : s.counts = .zero axes)
    (opened : s.builder.opened = []) : s.Contained where
  cells := by
    rw [counts]
    cases axes with
    | one => exact fun _ he => nomatch he
    | two => exact fun _ he => nomatch he
  hits := by
    rw [opened]
    exact fun _ hh => nomatch hh

/-- Counts that are added inside the resolution leave no cell past it. -/
theorem Contained.grow {buffered : Bool} (h : s.Contained)
    (grows : Tally.Grows buffered s.HasBins s.tally t.tally)
    (bits : t.metadata.bits = s.metadata.bits)
    (hits : ∀ h ∈ hitsOf t.builder.opened, (h.value 0).Fits) : t.Contained where
  hits := hits
  cells := by
    rintro ⟨coords, n⟩ he
    rw [HasBins, bits]
    rcases grows.cells coords with kept | ⟨inside, -, -⟩
    · refine h.cells (coords, n) (Counts.mem_entries.2 ?_)
      exact kept.stored.symm.trans (Counts.mem_entries.1 he)
    · exact inside

/-- Cells up to a number that the resolution has a bin for do not lie past it. -/
theorem contained_of_within {m : Bin} (within : s.counts.Within m)
    (below : m.toNat < 2 ^ s.metadata.bits)
    (hits : ∀ h ∈ hitsOf s.builder.opened, (h.value 0).Fits) : s.Contained where
  hits := hits
  cells e he b hb := Nat.lt_of_le_of_lt (UInt16.le_iff_toNat_le.1 (within e he b hb)) below

theorem Contained.replaces (h : s.Contained) (replaced : s.Replaces op t)
    (inside : s.FillsInside op) : t.Contained := by
  cases replaced with
  | setUp h =>
      obtain ⟨-, rfl⟩ := setUp_eq_ok h
      exact contained_of_zero s.axes rfl rfl
  | reset => exact contained_of_zero s.axes rfl rfl
  | readText read =>
      have below := inside t read
      obtain ⟨_, _, htext, rfl⟩ := readText_eq_ok read
      exact contained_of_within (Counts.within_ofText htext) below h.hits
  | load h =>
      rcases load_eq_ok h with ⟨_, l, -, hread, rfl⟩ | ⟨_, _, _, side, -, hread, rfl⟩
      · refine contained_of_within (Listing.within_read hread) ?_ fun _ hh => nomatch hh
        exact Nat.lt_log2_self
      · refine contained_of_within (Dense.within_read hread) ?_ fun _ hh => nomatch hh
        obtain ⟨⟨k, -, hk, rfl, -⟩, -⟩ := Dense.read_eq_ok_iff.1 hread
        show (UInt16.ofNat (2 ^ k - 1)).toNat < 2 ^ (2 ^ k).log2
        rw [Nat.log2_two_pow, UInt16.toNat_ofNat']
        exact Nat.lt_of_le_of_lt (Nat.mod_le _ _) (Nat.sub_one_lt (Nat.two_pow_pos k).ne')

/-- An operation that fills no cell past the resolution leaves none there. -/
theorem Contained.apply (h : s.Contained) (usable : s.metadata.bits ≤ 16)
    (inside : s.FillsInside op) : (s.apply op).Contained := by
  cases effect s op with
  | adds adds =>
      have bits := bits_of_adds (s := s) adds
      cases op with
      | feed call =>
          have fits : ∀ h ∈ hitsOf (s.closes call ++ (s.feed call).builder.opened),
              (h.value 0).Fits := fun g hg => (mem_hits_feed hg).elim (inside g) (h.hits g)
          rw [hitsOf_append, List.forall_mem_append] at fits
          refine h.grow (grows_feed fun e he coords cell => ?_) bits fits.2
          exact Metadata.cellFor?_lt usable
            (fun g hg => fits.1 g (List.mem_flatMap.2 ⟨e, he, hg⟩)) cell
      | append coords n =>
          have opened : (s.append coords n).builder = s.builder := by
            rw [append]
            split
            · rfl
            · rfl
          refine h.grow (grows_append n inside) bits ?_
          show ∀ h ∈ hitsOf (s.append coords n).builder.opened, _
          rw [opened]
          exact h.hits
      | _ => cases adds
  | reads bounds read =>
      subst read
      rw [Spectrum.apply, readRange]
      split
      · refine ⟨?_, h.hits⟩
        rw [Counts.entries_forgetTouched]
        exact h.cells
      · exact h
  | replaces replaced => exact h.replaces replaced inside
  | leaves alike =>
      refine ⟨?_, by rw [alike.builder]; exact h.hits⟩
      simp only [HasBins]
      rw [alike.counts, alike.metadata]
      exact h.cells

theorem Contained.applyAll (h : s.Contained) (usable : s.metadata.bits ≤ 16)
    {ops : List Operation} (inside : s.EachStep FillsInside ops) : (s.applyAll ops).Contained := by
  induction ops generalizing s with
  | nil => exact h
  | cons op ops ih => exact ih (h.apply usable inside.1) (bits_apply usable) inside.2

/-! ## Reads without ranges -/

/-- Whatever was done with a spectrum whose reads are not buffered, a read without ranges gives
the populated cells that the resolution has bins for, in ascending order and with their counts.
Nothing is missing from their sum if and only if there are no others, and there are none as long
as nothing named a cell past the resolution. -/
theorem full_read_complete (axes : Axes) (ops : List Operation)
    (plain : ((blank axes).applyAll ops).readsTouched = false) :
    let s := (blank axes).applyAll ops
    let es := (s.readRange []).1
    es.Pairwise (fun a b => a.1 < b.1) ∧
      (∀ e ∈ es, e.2 = s.counts.count e.1) ∧
      (∀ coords, s.counts.count coords ≠ 0 →
        ((coords, s.counts.count coords) ∈ es ↔ s.HasBins coords)) ∧
      ((es.map Prod.snd).sum = (s.counts.entries.map Prod.snd).sum ↔
        ∀ coords, s.counts.count coords ≠ 0 → s.HasBins coords) ∧
      ((blank axes).EachStep FillsInside ops →
        ∀ coords, s.counts.count coords ≠ 0 → s.HasBins coords) := by
  intro s es
  have start : (blank axes).metadata.bits ≤ 16 := show 14 ≤ 16 by decide
  have usable : s.metadata.bits ≤ 16 := bits_applyAll start ops
  have read : es = s.counts.entries.filter fun e => holdsAll (s.effectiveBounds []) e.1 :=
    readRange_plain plain []
  have inside : ∀ e ∈ s.counts.entries,
      (holdsAll (s.effectiveBounds []) e.1 = true ↔ s.HasBins e.1) := fun e he =>
    holdsAll_effectiveBounds_nil usable (Counts.length_of_mem_entries he)
  refine ⟨ascending_readRange s [], fun e he => ?_, fun coords populated => ?_, ?_, ?_⟩
  · rw [read, List.mem_filter] at he
    exact (Counts.count_of_mem_entries he.1).symm
  · have stored := Counts.mem_entries_of_count_ne_zero populated
    rw [read, List.mem_filter, inside _ stored]
    exact and_iff_right stored
  · rw [read, sum_filter_eq_iff]
    constructor
    · intro rest coords populated
      have stored := Counts.mem_entries_of_count_ne_zero populated
      by_contra past
      refine populated (rest _ stored ?_)
      rwa [← Bool.not_eq_true, inside _ stored]
    · intro all e he outside
      by_contra populated
      rw [← Counts.count_of_mem_entries he] at populated
      rw [(inside e he).2 (all e.1 populated)] at outside
      cases outside
  · intro fills coords populated
    have empty : (blank axes).Contained := contained_of_zero axes rfl rfl
    exact (empty.applyAll start fills).cells _ (Counts.mem_entries_of_count_ne_zero populated)

/-- A setup, counts of a text, a coincidence, an entry in the last bin, and an entry of nothing. -/
def insideOperations : List Operation :=
  [.setUp planeSetup,
    .readText "+ 1 0 2 5 6".toList,
    .feed (.push { hits := [strike 0 100 0x1234, strike 1 105 0x3000] }),
    .feed .flush,
    .append [3, 255] 7,
    .append [0, 9] 0]

theorem full_read_complete_plane :
    ((blank .two).applyAll insideOperations).readsTouched = false ∧
      (blank .two).EachStep FillsInside insideOperations ∧
      let es := (((blank .two).applyAll insideOperations).readRange []).1
      es.Pairwise (fun a b => a.1 < b.1) ∧ ([3, 255], 7) ∈ es ∧ (es.map Prod.snd).sum = 19 := by
  have plain : ((blank .two).applyAll insideOperations).readsTouched = false := by decide +kernel
  have inside : (blank .two).EachStep FillsInside insideOperations := by
    simp only [insideOperations, EachStep, FillsInside, true_and, and_true]
    refine ⟨fun t read => ?_, ?_, fun h hh => (nomatch hh), ?_, ?_⟩
    · have last : (((blank .two).apply (.setUp planeSetup)).readText
          "+ 1 0 2 5 6".toList).toOption.map (fun t => t.metadata.maxBin.toNat) = some 3 := by
        decide +kernel
      rw [read] at last
      have last : t.metadata.maxBin.toNat = 3 := Option.some.inj last
      rw [last]
      decide +kernel
    · show ∀ h ∈ [strike 0 100 0x1234, strike 1 105 0x3000], (h.value 0).Fits
      decide
    · decide +kernel
    · decide +kernel
  have counted : ((blank .two).applyAll insideOperations).counts.count [3, 255] = 7 := by
    decide +kernel
  have stored : (((blank .two).applyAll insideOperations).counts.entries.map Prod.snd).sum =
      19 := by decide +kernel
  obtain ⟨ascending, -, given, complete, contained⟩ :=
    full_read_complete .two insideOperations plain
  refine ⟨plain, inside, ascending, ?_, (complete.2 (contained inside)).trans stored⟩
  have populated : ((blank .two).applyAll insideOperations).counts.count [3, 255] ≠ 0 := by
    rw [counted]
    decide
  rw [← counted]
  exact (given _ populated).2 (contained inside _ populated)

/-- An entry past the resolution is counted, and no read without ranges gives it. -/
theorem entry_past_resolution_unread :
    let s := (blank .one).applyAll [.setUp { bits := 8, add := .ofChannels [0] }, .append [300] 5]
    s.readsTouched = false ∧ s.counts.count [300] = 5 ∧ s.metadata.total = 5 ∧
      (s.readRange []).1 = [] := by
  decide +kernel

end Spectrum

end ListMode
