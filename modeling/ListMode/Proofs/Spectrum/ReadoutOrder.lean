import ListMode.Decoder.Basic
import ListMode.Proofs.Coincidence.Formation
import ListMode.Proofs.Coincidence.Pairing
import ListMode.Proofs.Record.RoundTrip
import ListMode.Proofs.Spectrum.HitConservation

/-!
# The order of readout

A decoder puts the hits of one event of a module in time order, and leaves the events
in the order they were read out.  So two coincident hits of different modules may
reach a spectrum with the later one first, and then they are not counted as a pair.

`Spectrum.pair_counted` says when a pair of a raw spill is counted in the cell of its
two energies: the earlier hit is read first, and what is read between the two is
earlier than both.  `Spectrum.pair_divided` says that no event has both of them when
the later is read first.  So the counts of a spill change when its records change
places, as they do for two modules that fire together (`Spectrum.twoModules_divided`).
-/

namespace ListMode.Spectrum

open Coincidence (Builder Event follows ClearOf)

/-- The events closed by a spill and a flush are all that its hits made. -/
theorem closedBy_push_flush (s : Spectrum) (spill : Spill) :
    s.closedBy [.push spill, .flush] =
      let read := s.builder.pushAll (spill.hits.filter (takes s.metadata))
      read.2 ++ read.1.opened := by
  simp only [closedBy, Builder.feedAll, Builder.feed, List.append_nil]
  split
  · exact List.append_nil _
  · rfl

/-- The cell of two energies, the energy on the lower channel first. -/
def pairCell (bits : Nat) (x y : Hit) : List Bin :=
  if x.gate < y.gate then [(x.value 0).rescale bits, (y.value 0).rescale bits]
  else [(y.value 0).rescale bits, (x.value 0).rescale bits]

theorem axis_of_takes {m : Metadata} (hc : m.coincidence.selected = [])
    (ha : m.anticoincidence.selected = []) {h : Hit} (taken : takes m h = true) :
    h.routed = true ∧ h.gate ∈ m.add.selected := by
  simpa [takes, Metadata.relevant, Gates.opens, hc, ha] using taken

/-- The event of a pair is counted in the cell of its two energies. -/
theorem cellFor?_pair {m : Metadata} (hc : m.coincidence.selected = [])
    (ha : m.anticoincidence.selected = []) {a c : Nat} (hadd : m.add.selected = [a, c])
    {x y : Hit} (hx : x.gate ∈ m.add.selected) (hy : y.gate ∈ m.add.selected)
    (channels : x.gate ≠ y.gate) :
    m.cellFor? .two ((Event.opening x).add y) = some (pairCell m.bits x y) := by
  have apart : ((Event.opening x).add y).Apart := by
    refine (Event.apart_opening x).add ?_
    simp [Event.has, Event.opening, channels]
  have member : ∀ z, z = x ∨ z = y → ((Event.opening x).add y).hit? z.gate = some z := by
    intro z hz
    refine (Event.hit?_eq_some_iff apart).2 ⟨Event.mem_hits_add.2 ?_, rfl⟩
    rcases hz with rfl | rfl
    · exact .inr List.mem_cons_self
    · exact .inl rfl
  have bin : ∀ z, z = x ∨ z = y → Counts.axisBin? ((Event.opening x).add y) z.gate m.bits =
      some ((z.value 0).rescale m.bits) := by
    intro z hz
    rw [Counts.axisBin?, member z hz, Option.map_some]
  have ascending := m.add.ascending
  rw [hadd] at ascending hx hy
  have hac : a < c := (List.pairwise_cons.1 ascending).1 c List.mem_cons_self
  rw [cellFor?_two hc ha hadd]
  simp only [List.mem_cons, List.not_mem_nil, or_false] at hx hy
  rcases hx with hx | hx
  · have hy : y.gate = c := hy.resolve_left fun hy => channels (hx.trans hy.symm)
    have order : x.gate < y.gate := by rwa [hx, hy]
    rw [← hx, ← hy, bin x (.inl rfl), bin y (.inr rfl), pairCell, if_pos order]
    rfl
  · have hy : y.gate = a := hy.resolve_right fun hy => channels (hx.trans hy.symm)
    have order : y.gate < x.gate := by rwa [hx, hy]
    rw [← hx, ← hy, bin x (.inl rfl), bin y (.inr rfl), pairCell,
      if_neg (Nat.not_lt.2 (Nat.le_of_lt order))]
    rfl

/-- Of a raw spill, two hits on the two axes that are near each other and apart from
all other hits on an axis are counted as one event in the cell of their energies, when
the earlier is read first and all that is read between them is earlier still. -/
theorem pair_counted {m : Metadata} {s : Spectrum} (set_up : setUp .two m = .ok s)
    (coincidence : m.coincidence.selected = []) (anticoincidence : m.anticoincidence.selected = [])
    (settings : Settings) (spill : Spill) {x y : Hit} {before between after : List Hit}
    (read : (settings.decodeSpill spill).hits.filter (takes s.metadata) =
      before ++ x :: between ++ y :: after)
    (channels : x.gate ≠ y.gate) (near : follows s.builder.window x.time y.time = true)
    (apart : ∀ z ∈ before ++ between ++ after, ClearOf s.builder.window x y z.time)
    (earlier : ∀ z ∈ between, x.time.atMost z.time = false) :
    let calls := [.push (settings.decodeSpill spill), .flush]
    (∃ e ∈ s.closedBy calls, e.hits.Perm [x, y] ∧
        s.metadata.cellFor? s.axes e = some (pairCell m.bits x y)) ∧
      0 < (s.feedAll calls).counts.count (pairCell m.bits x y) := by
  obtain ⟨selects, hs⟩ := setUp_eq_ok set_up
  obtain ⟨a, c, hadd⟩ := List.length_eq_two.1 selects
  have taken : ∀ z ∈ before ++ x :: between ++ y :: after, z.routed = true ∧
      z.gate ∈ m.add.selected := by
    intro z hz
    rw [← read] at hz
    have htaken := (List.mem_filter.1 hz).2
    rw [hs] at htaken
    exact axis_of_takes coincidence anticoincidence htaken
  obtain ⟨hx, xaxis⟩ := taken x (by simp)
  obtain ⟨hy, yaxis⟩ := taken y (by simp)
  intro calls
  have formed : (Event.opening x).add y ∈ s.closedBy calls := by
    rw [closedBy_push_flush, read]
    exact Builder.pair_formed (by rw [hs]; rfl) ⟨hx, hy⟩ channels near apart earlier
  have cell : s.metadata.cellFor? s.axes ((Event.opening x).add y) =
      some (pairCell m.bits x y) := by
    rw [hs]
    exact cellFor?_pair coincidence anticoincidence hadd xaxis yaxis channels
  refine ⟨⟨_, formed, ((Event.opening x).add_perm y).trans (List.Perm.swap x y []), cell⟩, ?_⟩
  have empty : s.counts.count (pairCell m.bits x y) ≤ countLimit := by
    rw [hs, pairCell]
    split <;> exact Nat.zero_le _
  rw [count_feedAll (by rw [hs]) calls empty]
  have counted : 0 < (s.closedBy calls).countP fun e =>
      s.metadata.cellFor? s.axes e == some (pairCell m.bits x y) :=
    List.countP_pos_iff.2 ⟨_, formed, by simp [cell]⟩
  have limit : 0 < countLimit := by decide
  omega

/-- Of a raw spill, two hits apart from all other hits on an axis are in no event
together when the later is read first. -/
theorem pair_divided {s : Spectrum} (fresh : s.builder.opened = []) (settings : Settings)
    (spill : Spill) {x y : Hit} {before between after : List Hit}
    (read : (settings.decodeSpill spill).hits.filter (takes s.metadata) =
      before ++ y :: between ++ x :: after)
    (apart : ∀ z ∈ before ++ between ++ after, ClearOf s.builder.window x y z.time)
    (later : y.time.atMost x.time = false) :
    ∀ e ∈ s.closedBy [.push (settings.decodeSpill spill), .flush], ¬ (x ∈ e.hits ∧ y ∈ e.hits) := by
  rw [closedBy_push_flush, read]
  exact Builder.pair_split fresh apart later

/-! ## Two modules -/

/-- A record with one hit, on the first channel of a module. -/
def single (module trigger energy : UInt16) : Recording :=
  { layout := .compressed, module, timeHigh := 0, timeMid := 0, timeLow := 0
    events := [⟨⟨0x0100, 0, trigger⟩, [(0, { trigger, energy })]⟩] }

/-- What a spill of records of two modules decodes to. -/
def twoModulesRead (records : List Recording) : Spill :=
  Settings.decodeSpill { topology := .sequential 2 }
    (.ofRaw (records.flatMap (·.draft.toBytes)) 0)

/-- The first channel of one module against the first of the other. -/
def twoModuleSetup : Metadata :=
  { dimensions := 2, bits := 8, add := .ofChannels [0, 4], window := 1000.0 }

/-- A hit on a channel of the two modules. -/
def pulse (source : SourceId) (ticks : UInt64) (energy : UInt16) : Hit :=
  ⟨source, ⟨ticks, .pixie4⟩, [⟨energy, 16⟩, ⟨0, 1⟩, ⟨0, 16⟩, ⟨0, 16⟩], .blank 0⟩

theorem pair_counted_twoModules :
    ∃ s, setUp .two twoModuleSetup = .ok s ∧
      let x := pulse 0 900 0x1200
      let y := pulse 4 903 0x3400
      let z := pulse 4 100 0x5600
      let decoded := twoModulesRead [single 0 900 0x1200, single 1 100 0x5600, single 1 903 0x3400]
      decoded.hits.filter (takes s.metadata) = [] ++ x :: [z] ++ y :: [] ∧
        follows s.builder.window x.time y.time = true ∧
        ClearOf s.builder.window x y z.time ∧ x.time.atMost z.time = false ∧
        (∃ e ∈ s.closedBy [.push decoded, .flush], e.hits.Perm [x, y] ∧
          s.metadata.cellFor? s.axes e = some [0x12, 0x34]) ∧
        0 < (s.feedAll [.push decoded, .flush]).counts.count [0x12, 0x34] := by
  obtain ⟨s, hs⟩ : ∃ s, setUp .two twoModuleSetup = .ok s := ⟨_, rfl⟩
  have hnew := (setUp_eq_ok hs).2
  refine ⟨s, hs, ?_⟩
  intro x y z decoded
  have read : decoded.hits.filter (takes s.metadata) = [] ++ x :: [z] ++ y :: [] := by
    rw [hnew]
    decide +kernel
  have near : follows s.builder.window x.time y.time = true := by
    rw [hnew]
    decide +kernel
  have clear : ClearOf s.builder.window x y z.time := by
    rw [hnew]
    constructor <;> decide +kernel
  have earlier : x.time.atMost z.time = false := by decide
  have cell : pairCell twoModuleSetup.bits x y = [0x12, 0x34] := by decide
  refine ⟨read, near, clear, earlier, ?_⟩
  rw [← cell]
  exact pair_counted hs rfl rfl _ _ read (by decide) near (by simpa using clear)
    (by simpa using earlier)

/-- Two hits closer than half the window, and the only ones read, are counted one by one
when the later is read first. -/
theorem twoModules_divided :
    ∃ s, setUp .two twoModuleSetup = .ok s ∧
      let x := pulse 0 100 0x1200
      let y := pulse 4 103 0x3400
      let decoded := twoModulesRead [single 1 103 0x3400, single 0 100 0x1200]
      decoded.hits = [y, x] ∧ (y.time.nsSince x.time <= s.metadata.window / 2) = true ∧
        (∀ e ∈ s.closedBy [.push decoded, .flush], ¬ (x ∈ e.hits ∧ y ∈ e.hits)) ∧
        (s.feedAll [.push decoded, .flush]).counts.entries =
          [([0, 0x34], 1), ([0x12, 0], 1)] := by
  obtain ⟨s, hs⟩ : ∃ s, setUp .two twoModuleSetup = .ok s := ⟨_, rfl⟩
  have hnew := (setUp_eq_ok hs).2
  refine ⟨s, hs, ?_⟩
  intro x y decoded
  have hits : decoded.hits = [y, x] := by decide +kernel
  have read : decoded.hits.filter (takes s.metadata) = [] ++ y :: [] ++ x :: [] := by
    rw [hits, hnew]
    decide
  refine ⟨hits, ?_, ?_, ?_⟩
  · rw [hnew]
    decide +kernel
  · exact pair_divided (by rw [hnew]; rfl) _ _ read (by simp) (by decide)
  · rw [hnew]
    decide +kernel

end ListMode.Spectrum
