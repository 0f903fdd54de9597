import ListMode.Proofs.Spectrum.HitConservation

/-!
# Gated counts

A cell of a spectrum holds the number of events that pass the gates and have the
numbers of the cell (`Spectrum.counts_gated`).  Gates and numbers are those of a
whole event: which channels took part (`Metadata.Gated`), and for each axis the
first value of the hit on its channel moved to the resolution of the spectrum
(`Event.reading`).  So it matters neither in which order the hits of an event came
nor in which spill.

The events are those of the builder alone (`Builder.feedAll`); that it closes them
while others are counted is the matter of `Spectrum.feedAll_counted`.
-/

namespace ListMode

open Coincidence (Builder Event hitsOf hitsOf_nil)

/-! ## Samples at another width -/

namespace Digitized

/-- The sample fits its declared width, and the width fits a word. -/
structure Fits (v : Digitized) : Prop where
  width : v.bits ≤ 16
  sample : v.raw.toNat < 2 ^ v.bits

instance (v : Digitized) : Decidable v.Fits :=
  decidable_of_iff (v.bits ≤ 16 ∧ v.raw.toNat < 2 ^ v.bits)
    ⟨fun h => ⟨h.1, h.2⟩, fun h => ⟨h.width, h.sample⟩⟩

/-- The sample at another width; bits that have no place are cut off. -/
def shifted (v : Digitized) (bits : Nat) : Nat := v.raw.toNat * 2 ^ bits / 2 ^ v.bits

variable {v : Digitized}

theorem Fits.shifted_lt (h : v.Fits) (bits : Nat) : v.shifted bits < 2 ^ bits := by
  rw [shifted, Nat.div_lt_iff_lt_mul (Nat.two_pow_pos _), Nat.mul_comm (2 ^ bits)]
  exact Nat.mul_lt_mul_of_pos_right h.sample (Nat.two_pow_pos _)

theorem shifted_of_le {bits : Nat} (h : bits ≤ v.bits) :
    v.shifted bits = v.raw.toNat >>> (v.bits - bits) := by
  have hpow : 2 ^ v.bits = 2 ^ (v.bits - bits) * 2 ^ bits := by
    rw [← Nat.pow_add, Nat.sub_add_cancel h]
  rw [shifted, hpow, Nat.mul_div_mul_right _ _ (Nat.two_pow_pos _), Nat.shiftRight_eq_div_pow]

theorem shifted_of_ge {bits : Nat} (h : v.bits ≤ bits) :
    v.shifted bits = v.raw.toNat <<< (bits - v.bits) := by
  have hpow : 2 ^ bits = 2 ^ (bits - v.bits) * 2 ^ v.bits := by
    rw [← Nat.pow_add, Nat.sub_add_cancel h]
  rw [shifted, hpow, ← Nat.mul_assoc, Nat.mul_div_cancel _ (Nat.two_pow_pos _),
    Nat.shiftLeft_eq]

/-- At a width of no more than a word nothing is lost at the top. -/
theorem Fits.toNat_rescale (h : v.Fits) {bits : Nat} (usable : bits ≤ 16) :
    (v.rescale bits).toNat = v.shifted bits := by
  have hlt : v.shifted bits < 65536 :=
    Nat.lt_of_lt_of_le (h.shifted_lt bits) (Nat.pow_le_pow_right Nat.two_pos usable)
  rw [rescale]
  split
  · next hle =>
    rw [← shifted_of_le hle, UInt16.toNat_ofNat']
    exact Nat.mod_eq_of_lt hlt
  · next hlt' =>
    have hmin : min (bits - v.bits) 16 = bits - v.bits := by omega
    rw [hmin, ← shifted_of_ge (by omega), UInt16.toNat_ofNat', Nat.min_eq_left (by omega)]
    exact Nat.mod_eq_of_lt hlt

end Digitized

/-! ## Events behind gates -/

namespace Coincidence.Event

/-- What an axis reads of an event: the first value of the hit on its channel at the
resolution of the axis, and 0 when the channel took no part. -/
def reading (e : Event) (channel bits : Nat) : Nat :=
  match e.hit? channel with
  | some h => (h.value 0).shifted bits
  | none => 0

theorem isSome_hit? (e : Event) (channel : Nat) : (e.hit? channel).isSome = e.has channel := by
  rw [hit?, has, List.isSome_find?]

theorem of_hit? {e : Event} {channel : Nat} {h : Hit} (found : e.hit? channel = some h) :
    h ∈ e.hits ∧ h.gate = channel :=
  ⟨List.mem_of_find?_eq_some found, by simpa using List.find?_some found⟩

end Coincidence.Event

/-- Every coincidence channel took part in the event, no anticoincidence channel did,
and some channel of the axes did. -/
def Metadata.Gated (m : Metadata) (e : Event) : Prop :=
  (∀ c ∈ m.coincidence.selected, e.has c = true) ∧
    (∀ c ∈ m.anticoincidence.selected, e.has c = false) ∧ ∃ c ∈ m.add.selected, e.has c = true

instance (m : Metadata) (e : Event) : Decidable (m.Gated e) :=
  inferInstanceAs (Decidable (_ ∧ _ ∧ _))

theorem Metadata.gated_iff {m : Metadata} {e : Event} :
    m.Gated e ↔ e.passes m.coincidence m.anticoincidence = true ∧
      ∃ c ∈ m.add.selected, e.has c = true := by
  simp [Gated, Event.passes, Gates.allPresent, Gates.nonePresent, and_assoc]

/-- The numbers of an event on the axes. -/
def Metadata.bins (m : Metadata) (e : Event) : List Bin :=
  m.add.selected.map fun c => (Counts.axisBin? e c m.bits).getD 0

theorem Counts.isSome_axisBin? (e : Event) (channel bits : Nat) :
    (axisBin? e channel bits).isSome = e.has channel := by
  rw [axisBin?, Option.isSome_map, e.isSome_hit?]

/-- An event is counted if and only if it passes the gates, and in the cell of its
numbers. -/
theorem Metadata.cellFor?_eq {axes : Axes} {m : Metadata} (selects : m.add.count = axes.dimensions)
    (e : Event) : m.cellFor? axes e = if m.Gated e then some (m.bins e) else none := by
  rw [cellFor?]
  by_cases passes : e.passes m.coincidence m.anticoincidence = true
  · simp only [gated_iff, passes, if_true, true_and]
    cases axes with
    | one =>
      obtain ⟨a, hadd⟩ := List.length_eq_one_iff.1 selects
      have present := Counts.isSome_axisBin? e a m.bits
      simp only [Counts.cellOf?, axisChannels, bins, hadd]
      cases hbin : Counts.axisBin? e a m.bits with
      | none => simp [hbin, ← present]
      | some b => simp [hbin, ← present]
    | two =>
      obtain ⟨a, c, hadd⟩ := List.length_eq_two.1 selects
      have first := Counts.isSome_axisBin? e a m.bits
      have second := Counts.isSome_axisBin? e c m.bits
      simp only [Counts.cellOf?, axisChannels, bins, hadd]
      cases hfirst : Counts.axisBin? e a m.bits with
      | none =>
        cases hsecond : Counts.axisBin? e c m.bits with
        | none => simp [hfirst, hsecond, ← first, ← second]
        | some b => simp [hfirst, hsecond, ← first, ← second]
      | some b => simp [hfirst, ← first]
  · simp [gated_iff, passes]

/-- When the values of the hits on the axes fit their widths, the numbers of an event
are its readings. -/
theorem Metadata.map_toNat_bins {m : Metadata} (usable : m.bits ≤ 16) {e : Event}
    (fits : ∀ h ∈ e.hits, m.add.opens h.gate = true → (h.value 0).Fits) :
    (m.bins e).map UInt16.toNat = m.add.selected.map (e.reading · m.bits) := by
  rw [bins, List.map_map]
  refine List.map_congr_left fun c hc => ?_
  rw [Function.comp_apply, Counts.axisBin?, Event.reading]
  cases found : e.hit? c with
  | none => rfl
  | some h =>
    obtain ⟨member, on⟩ := Event.of_hit? found
    exact (fits h member (by rwa [on, ← Gates.mem_selected])).toNat_rescale usable

/-- An axis reads no more than it has bins. -/
theorem Coincidence.Event.reading_lt {m : Metadata} {e : Event}
    (fits : ∀ h ∈ e.hits, m.add.opens h.gate = true → (h.value 0).Fits) {c : Nat}
    (axis : c ∈ m.add.selected) : e.reading c m.bits < 2 ^ m.bits := by
  rw [reading]
  cases found : e.hit? c with
  | none => exact Nat.two_pow_pos _
  | some h =>
    obtain ⟨member, on⟩ := of_hit? found
    exact (fits h member (by rwa [on, ← Gates.mem_selected])).shifted_lt m.bits

/-! ## The counts of a run -/

namespace Spectrum

/-- The events that calls close have no other hits than those pushed. -/
theorem mem_flatMap_hits {takes : Hit → Bool} {window : Float} {calls : List Feed} {e : Event}
    (closed : e ∈ ((Builder.ofWindow window).feedAll takes calls).2) {h : Hit} (hh : h ∈ e.hits) :
    h ∈ calls.flatMap Feed.hits := by
  have all := Builder.hitsOf_feedAll_perm takes (Builder.ofWindow window) calls
  have member : h ∈ hitsOf (((Builder.ofWindow window).feedAll takes calls).2 ++
      ((Builder.ofWindow window).feedAll takes calls).1.opened) :=
    List.mem_flatMap.2 ⟨e, List.mem_append_left _ closed, hh⟩
  have none_open : (Builder.ofWindow window).opened = [] := rfl
  rw [all.mem_iff, none_open, hitsOf_nil, List.append_nil] at member
  exact (List.mem_filter.1 (List.mem_filter.1 member).1).1

/-- A spectrum counts the events behind its gates.  In every cell stand the events that
the axes read the numbers of the cell from, each axis reads a number that it has a bin
for, and the total is the number of the events. -/
theorem counts_gated {axes : Axes} {m : Metadata} {s : Spectrum} (set_up : setUp axes m = .ok s)
    (fresh : m.total = 0) (calls : List Feed)
    (fits : ∀ h ∈ calls.flatMap Feed.hits, m.add.opens h.gate = true → (h.value 0).Fits)
    (room : s.NoCellFull calls) :
    let events := ((Builder.ofWindow m.window).feedAll (takes m) calls).2
    let filled := s.feedAll calls
    (∀ coords, filled.counts.count coords = events.countP fun e =>
        m.Gated e ∧ coords.map UInt16.toNat = m.add.selected.map (e.reading · m.bits)) ∧
      (∀ e ∈ events, ∀ c ∈ m.add.selected, e.reading c m.bits < 2 ^ m.bits) ∧
      filled.metadata.total = events.countP fun e => m.Gated e := by
  intro events filled
  obtain ⟨selects, hs⟩ := setUp_eq_ok set_up
  have usable : m.bits ≤ 16 := (usableWidth_of_setUp set_up).2
  have run : s.closedBy calls = events := by rw [hs]; rfl
  have fits_of : ∀ e ∈ events, ∀ h ∈ e.hits, m.add.opens h.gate = true → (h.value 0).Fits :=
    fun e he h hh => fits h (mem_flatMap_hits he hh)
  refine ⟨fun coords => ?_, fun e he c hc => Event.reading_lt (fits_of e he) hc, ?_⟩
  · rw [count_of_setUp set_up room, run]
    refine List.countP_congr fun e he => ?_
    rw [Metadata.cellFor?_eq selects, beq_iff_eq, decide_eq_true_eq,
      ← Metadata.map_toNat_bins usable (fits_of e he),
      List.map_inj_right fun _ _ => UInt16.toNat_inj.1]
    by_cases gated : m.Gated e
    · simp [gated, eq_comm]
    · simp [gated]
  · have total : filled.metadata.total = filled.tally.total := rfl
    have start : s.tally.total = 0 := by rw [hs]; exact fresh
    have ready : s.ready = true := by rw [hs]
    have cells : ∀ e, s.metadata.setup.cellFor? s.tally.counts.axes e = m.cellFor? axes e := by
      intro e
      rw [hs]
      cases axes <;> rfl
    rw [total, tally_feedAll ready, Tally.total_countAll, start, Nat.zero_add, run]
    refine List.countP_congr fun e _ => ?_
    rw [cells, Metadata.cellFor?_eq selects]
    by_cases gated : m.Gated e
    · simp [gated]
    · simp [gated]

/-- Channels 0 and 1 against each other at eight bits, with channel 0 and without
channel 2. -/
def gatedSetup : Metadata :=
  { dimensions := 2
    bits := 8
    add := .ofChannels [0, 1]
    coincidence := .ofChannels [0]
    anticoincidence := .ofChannels [2]
    window := 10.0 }

/-- An event in two spills, one with a hit on channel 2, one without channel 0, and one
on channel 0 alone that only a stop closes. -/
def gatedCalls : List Feed :=
  [.push { hits := [strike 0 100 0x1234] },
    .push
      { hits := [{ strike 1 105 3 with values := [⟨3, 4⟩] }, strike 0 400 0x1200, strike 2 402 1,
          strike 1 600 0x3000, strike 0 800 0x1299]
        stats := [{ phase := .stop, source := 7 }] }]

theorem counts_gated_twoSpills :
    ∃ s, setUp .two gatedSetup = .ok s ∧ s.NoCellFull gatedCalls ∧
      (∀ h ∈ gatedCalls.flatMap Feed.hits, gatedSetup.add.opens h.gate = true →
        (h.value 0).Fits) ∧
      (s.feedAll gatedCalls).counts.count [0x12, 0x30] = 1 ∧
      (s.feedAll gatedCalls).counts.count [0x12, 0] = 1 ∧
      (s.feedAll gatedCalls).metadata.total = 2 := by
  obtain ⟨s, hs⟩ : ∃ s, setUp .two gatedSetup = .ok s := ⟨_, rfl⟩
  have room : s.NoCellFull gatedCalls := by
    obtain ⟨-, rfl⟩ := setUp_eq_ok hs
    intro coords
    refine List.countP_le_length.trans ?_
    decide +kernel
  have fits : ∀ h ∈ gatedCalls.flatMap Feed.hits, gatedSetup.add.opens h.gate = true →
      (h.value 0).Fits := by decide
  obtain ⟨counts, -, total⟩ := counts_gated hs rfl gatedCalls fits room
  refine ⟨s, hs, room, fits, (counts _).trans ?_, (counts _).trans ?_, total.trans ?_⟩
  · decide +kernel
  · decide +kernel
  · decide +kernel

end Spectrum

end ListMode
