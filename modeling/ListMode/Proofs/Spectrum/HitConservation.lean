import ListMode.Proofs.Spectrum.Counting

/-!
# Hits are conserved

A spectrum that is set up without gates counts every hit on its axis channels
once, whatever the order of the hits, however they are divided into spills, and
wherever a flush falls (`Spectrum.conserves_hits`).

An event has at most one hit on a channel, and the hits of the closed events are
the hits taken, each once.  So the events that hold a hit of some energy on a
channel are as many as the hits of that energy pushed on it (`countP_closedBy`).
With one axis these events are those of a bin.  With two axes they are those of a
row or a column, except at number 0, where the events stand that lack the channel.
-/

namespace ListMode

open Coincidence (Builder Event hitsOf countP_hitsOf)

/-! ## Hits on a channel -/

/-- The number of hits that calls push on a channel with their first value at `b`,
read at a width. -/
def pushedAt (cs : List Feed) (bits channel : Nat) (b : Bin) : Nat :=
  (cs.flatMap Feed.hits).countP fun h =>
    h.source.toInt == (channel : Int) && (h.value 0).rescale bits == b

namespace Spectrum

/-- No cell gets more events of those that calls close than a cell can count. -/
def NoCellFull (s : Spectrum) (cs : List Feed) : Prop :=
  ∀ coords, ((s.closedBy cs).countP fun e => s.metadata.cellFor? s.axes e == some coords) ≤
    countLimit

/-! ## Closed events -/

theorem setupFault?_eq_none {axes : Axes} {m : Metadata} :
    setupFault? axes m = none ↔
      m.dimensions = axes.dimensions ∧ UsableWidth m.bits ∧ m.add.count = axes.dimensions := by
  rw [setupFault?]
  split
  · next h => simp [h]
  · next h =>
      split
      · next hbits => simp [hbits]
      · next hbits =>
          split
          · next hadd => simp [hadd]
          · next hadd => simpa using ⟨not_not.1 h, not_not.1 hbits, not_not.1 hadd⟩

theorem setUp_eq_ok {axes : Axes} {m : Metadata} {s : Spectrum} (h : setUp axes m = .ok s) :
    m.add.count = axes.dimensions ∧
      s = { metadata :=
              { m with
                kind := some axes
                detectors := Metadata.resizeDetectors axes.dimensions m.detectors }
            counts := .zero axes
            builder := .ofWindow m.window
            ready := true } := by
  rw [setUp] at h
  split at h
  · cases h
  · next usable =>
      injection h with h
      exact ⟨(setupFault?_eq_none.1 usable).2.2, h.symm⟩

theorem usableWidth_of_setUp {axes : Axes} {m : Metadata} {s : Spectrum}
    (h : setUp axes m = .ok s) : UsableWidth m.bits := by
  rw [setUp] at h
  split at h
  · cases h
  · next usable => exact (setupFault?_eq_none.1 usable).2.1

/-- A spectrum that was set up counts in every cell the events that fall into it. -/
theorem count_of_setUp {axes : Axes} {m : Metadata} {s : Spectrum} (set_up : setUp axes m = .ok s)
    {calls : List Feed} (room : s.NoCellFull calls) (coords : List Bin) :
    (s.feedAll calls).counts.count coords =
      (s.closedBy calls).countP fun e => m.cellFor? axes e == some coords := by
  obtain ⟨-, hs⟩ := setUp_eq_ok set_up
  have ready : s.ready = true := by rw [hs]
  have cells : ∀ e, s.metadata.cellFor? s.axes e = m.cellFor? axes e := by
    intro e
    rw [hs]
    cases axes <;> rfl
  have zero : s.counts.count coords = 0 := by
    rw [hs]
    cases axes <;> rcases coords with _ | ⟨_, _ | ⟨_, _ | _⟩⟩ <;> rfl
  have held : s.counts.count coords ≤ countLimit := by rw [zero]; exact Nat.zero_le _
  have fits := room coords
  rw [count_feedAll ready _ held, zero]
  simp only [cells] at fits ⊢
  omega

theorem hitsOf_closedBy_perm {s : Spectrum} (fresh : s.builder.opened = []) (cs : List Feed) :
    (hitsOf (s.closedBy (cs ++ [.flush]))).Perm
      (((cs.flatMap Feed.hits).filter (takes s.metadata)).filter Hit.routed) := by
  have all := Builder.hitsOf_feedAll_perm (takes s.metadata) s.builder (cs ++ [.flush])
  have none_open : (s.builder.feedAll (takes s.metadata) (cs ++ [.flush])).1.opened = [] := by
    rw [Builder.feedAll_append]
    exact Builder.opened_flush _
  rw [none_open, fresh] at all
  simpa [closedBy, Feed.hits] using all

/-- The closed events with a hit on a channel are as many as the hits pushed on it. -/
theorem countP_closedBy {s : Spectrum} (fresh : s.builder.opened = []) (cs : List Feed)
    {channel : Nat} (axis : s.metadata.add.opens channel = true) (p : Hit → Bool) :
    (s.closedBy (cs ++ [.flush])).countP (fun e => (e.hit? channel).any p) =
      (cs.flatMap Feed.hits).countP fun h => h.source.toInt == (channel : Int) && p h := by
  have apart : ∀ e ∈ s.closedBy (cs ++ [.flush]), e.Apart :=
    (Builder.feedAll_apart (takes s.metadata) (b := s.builder) (fun e he => by simp [fresh] at he) _).2
  rw [← countP_hitsOf apart, (hitsOf_closedBy_perm fresh cs).countP_eq, List.countP_filter,
    List.countP_filter]
  refine List.countP_congr fun h _ => ?_
  have on := Hit.on_channel_iff h channel
  simp only [Bool.and_eq_true, beq_iff_eq, takes, Metadata.relevant, Bool.or_eq_true]
  constructor
  · rintro ⟨⟨⟨hc, hp⟩, hr⟩, -⟩
    exact ⟨on.1 ⟨hr, hc⟩, hp⟩
  · rintro ⟨hsource, hp⟩
    obtain ⟨hr, hc⟩ := on.2 hsource
    exact ⟨⟨⟨hc, hp⟩, hr⟩, hr, .inl (.inl (hc ▸ axis))⟩

/-! ## Ungated cells -/

theorem axisBin?_beq (e : Event) (channel bits : Nat) (b : Bin) :
    (Counts.axisBin? e channel bits == some b) =
      (e.hit? channel).any fun h => (h.value 0).rescale bits == b := by
  rw [Counts.axisBin?]
  cases e.hit? channel with
  | none => rfl
  | some h => rfl

theorem passes_of_no_gates {m : Metadata} (hc : m.coincidence.selected = [])
    (ha : m.anticoincidence.selected = []) (e : Event) :
    e.passes m.coincidence m.anticoincidence = true := by
  simp [Event.passes, Gates.allPresent, Gates.nonePresent, hc, ha]

theorem cellFor?_one {m : Metadata} (hc : m.coincidence.selected = [])
    (ha : m.anticoincidence.selected = []) {a : Nat} (hadd : m.add.selected = [a]) (e : Event)
    (b : Bin) :
    (m.cellFor? .one e == some [b]) = (Counts.axisBin? e a m.bits == some b) := by
  rw [Metadata.cellFor?, if_pos (passes_of_no_gates hc ha e)]
  simp only [Counts.cellOf?, Metadata.axisChannels, hadd]
  cases hbin : Counts.axisBin? e a m.bits with
  | none => simp [hbin]
  | some k => simp [hbin]

theorem cellFor?_two {m : Metadata} (hc : m.coincidence.selected = [])
    (ha : m.anticoincidence.selected = []) {a c : Nat} (hadd : m.add.selected = [a, c])
    (e : Event) :
    m.cellFor? .two e =
      let first := Counts.axisBin? e a m.bits
      let second := Counts.axisBin? e c m.bits
      if first.isNone && second.isNone then none else some [first.getD 0, second.getD 0] := by
  rw [Metadata.cellFor?, if_pos (passes_of_no_gates hc ha e)]
  simp only [Counts.cellOf?, Metadata.axisChannels, hadd]
  rfl

/-- Away from 0, the events of a cell are those with its numbers on both axes. -/
theorem row_cell {first second : Option Bin} {e : Bin} (he : e ≠ 0) (j : Bin) :
    ((if first.isNone && second.isNone then none else some [first.getD 0, second.getD 0]) ==
      some [e, j]) = (first == some e && some (second.getD 0) == some j) := by
  cases first with
  | none =>
      have hne : ((0 : Bin) == e) = false := by simpa using he.symm
      cases second with
      | none => rfl
      | some k => simp [hne]
  | some i => simp

theorem column_cell {first second : Option Bin} {e : Bin} (he : e ≠ 0) (i : Bin) :
    ((if first.isNone && second.isNone then none else some [first.getD 0, second.getD 0]) ==
      some [i, e]) = (second == some e && some (first.getD 0) == some i) := by
  cases second with
  | none =>
      have hne : ((0 : Bin) == e) = false := by simpa using he.symm
      cases first with
      | none => rfl
      | some k => simp [hne]
  | some j => simp [Bool.and_comm]

/-! ## The conservation law -/

/-- A spectrum without gates counts every hit on its axis channels once.  With one
axis, a bin holds the hits that fall into it.  With two, a row above 0 holds the hits
of the first channel with the number of the row, and a column those of the second. -/
theorem conserves_hits {axes : Axes} {m : Metadata} {s : Spectrum} (set_up : setUp axes m = .ok s)
    (coincidence : m.coincidence.selected = []) (anticoincidence : m.anticoincidence.selected = [])
    (calls : List Feed) (room : s.NoCellFull (calls ++ [.flush])) :
    let filled := s.feedAll (calls ++ [.flush])
    match axes with
    | .one => ∃ a, m.add.selected = [a] ∧
        ∀ b, filled.counts.count [b] = pushedAt calls m.bits a b
    | .two => ∃ a c, a < c ∧ m.add.selected = [a, c] ∧ ∀ e, 0 < e →
        ∑ j ∈ Finset.range UInt16.size, filled.counts.count [e, UInt16.ofNat j] =
            pushedAt calls m.bits a e ∧
          ∑ i ∈ Finset.range UInt16.size, filled.counts.count [UInt16.ofNat i, e] =
            pushedAt calls m.bits c e := by
  obtain ⟨selects, hs⟩ := setUp_eq_ok set_up
  have fresh : s.builder.opened = [] := by rw [hs]; rfl
  have counted := count_of_setUp set_up room
  have pushed : ∀ channel, m.add.opens channel = true → ∀ b,
      (s.closedBy (calls ++ [.flush])).countP
          (fun e => Counts.axisBin? e channel m.bits == some b) = pushedAt calls m.bits channel b := by
    intro channel opens b
    simp only [axisBin?_beq]
    exact countP_closedBy fresh calls (by rw [hs]; exact opens) _
  cases axes with
  | one =>
      obtain ⟨a, hadd⟩ := List.length_eq_one_iff.1 selects
      refine ⟨a, hadd, fun b => ?_⟩
      rw [counted, ← pushed a (by simp [Gates.opens, hadd])]
      simp only [cellFor?_one coincidence anticoincidence hadd]
  | two =>
      obtain ⟨a, c, hadd⟩ := List.length_eq_two.1 selects
      have ascending := m.add.ascending
      rw [hadd] at ascending
      have hac : a < c := (List.pairwise_cons.1 ascending).1 c List.mem_cons_self
      refine ⟨a, c, hac, hadd, fun e he => ?_⟩
      have hne : e ≠ 0 := fun h => by simp [h] at he
      simp only [counted, cellFor?_two coincidence anticoincidence hadd]
      constructor
      · simp only [row_cell hne]
        rw [sum_countP, ← pushed a (by simp [Gates.opens, hadd])]
        simp
      · simp only [column_cell hne]
        rw [sum_countP, ← pushed c (by simp [Gates.opens, hadd])]
        simp

/-- A hit of one value. -/
def strike (source : SourceId) (ticks : UInt64) (energy : UInt16) : Hit :=
  ⟨source, ⟨ticks, default⟩, [⟨energy, 16⟩], .blank 0⟩

/-- Channels 0 and 1 against each other, at eight bits. -/
def planeSetup : Metadata := { dimensions := 2, bits := 8, add := .ofChannels [1, 0], window := 10.0 }

/-- Two hits on one channel in a window, a late hit, a hit on another channel, a stop
in the middle and an energy of zero. -/
def planeCalls : List Feed :=
  [.push { hits := [strike 0 100 0x1234, strike 0 105 0x1200, strike 1 108 0x3000, strike 7 109 1] },
    .push
      { hits := [strike 1 90 0x3010, strike 0 400 0x1299]
        stats := [{ phase := .stop, source := 7 }] },
    .push { hits := [strike 1 401 0] }]

theorem conserves_hits_plane :
    pushedAt planeCalls 8 0 0x12 = 3 ∧ pushedAt planeCalls 8 1 0x30 = 2 ∧
      ∃ s, setUp .two planeSetup = .ok s ∧ s.NoCellFull (planeCalls ++ [.flush]) ∧
        ∃ a c, a < c ∧ planeSetup.add.selected = [a, c] ∧ ∀ e, 0 < e →
          ∑ j ∈ Finset.range UInt16.size,
              (s.feedAll (planeCalls ++ [.flush])).counts.count [e, UInt16.ofNat j] =
                pushedAt planeCalls 8 a e ∧
            ∑ i ∈ Finset.range UInt16.size,
              (s.feedAll (planeCalls ++ [.flush])).counts.count [UInt16.ofNat i, e] =
                pushedAt planeCalls 8 c e := by
  obtain ⟨s, hs⟩ : ∃ s, setUp .two planeSetup = .ok s := ⟨_, rfl⟩
  have room : s.NoCellFull (planeCalls ++ [.flush]) := by
    obtain ⟨-, rfl⟩ := setUp_eq_ok hs
    intro coords
    refine List.countP_le_length.trans ?_
    decide +kernel
  exact ⟨by decide, by decide, s, hs, room, conserves_hits hs rfl rfl planeCalls room⟩

end Spectrum

end ListMode
