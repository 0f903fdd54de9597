import ListMode.Proofs.Spectrum.GatedCounts
import ListMode.Proofs.Spectrum.Renewal

/-!
# Only relevant hits count

A spectrum has gates on some channels, and what it counts depends on nothing but the
sequence of the hits on these (`Spectrum.counts_of_concerning_hits`).  Two ways to cut one
sequence into spills, with other hits in between and with other statistics of a run that
goes on, leave spectra that differ in no more than the statistics (`Spectrum.Indistinct`).

Such spectra cannot be told apart by their counts afterwards either: no operation reads the
statistics of a run to count, so each leaves two of them indistinct (`Indistinct.apply`),
and so do operations one after the other (`Indistinct.applyAll`).
-/

namespace ListMode

open Coincidence (Builder)

/-! ## The hits on a gate -/

/-- The hit is on a channel, and some gate of the spectrum is open for it. -/
def Metadata.Concerns (m : Metadata) (h : Hit) : Prop :=
  0 ≤ h.source ∧ (h.gate ∈ m.add.selected ∨ h.gate ∈ m.coincidence.selected ∨
    h.gate ∈ m.anticoincidence.selected)

instance (m : Metadata) : DecidablePred m.Concerns :=
  fun _ => inferInstanceAs (Decidable (_ ∧ _))

namespace Spectrum

theorem takes_iff_concerns {m : Metadata} {h : Hit} : takes m h = true ↔ m.Concerns h := by
  simp only [takes, Hit.routed, Metadata.relevant, Metadata.Concerns, Gates.mem_selected,
    Bool.and_eq_true, Bool.or_eq_true, decide_eq_true_eq, or_assoc]

theorem filter_takes (m : Metadata) (hits : List Hit) :
    hits.filter (takes m) = hits.filter fun h => m.Concerns h :=
  List.filter_congr fun h _ => by
    rw [Bool.eq_iff_iff, takes_iff_concerns, decide_eq_true_iff]

/-! ## Spectra that differ in statistics -/

/-- The spectra differ in nothing but the statistics of their runs: the times, the start and
the mark of a change. -/
structure Indistinct (s t : Spectrum) : Prop where
  tally : t.tally = s.tally
  builder : t.builder = s.builder
  setup : t.metadata.setup = s.metadata.setup
  ready : t.ready = s.ready

namespace Indistinct

variable {s t : Spectrum}

theorem symm (h : Indistinct s t) : Indistinct t s :=
  ⟨h.tally.symm, h.builder.symm, h.setup.symm, h.ready.symm⟩

/-- The second of two such spectra is the first with statistics of its own. -/
theorem exists_statistics (h : Indistinct s t) : ∃ liveTimes realTimes startTime changed,
    t = { s with metadata := { s.metadata with liveTimes, realTimes, startTime, changed } } := by
  obtain ⟨tally, builder, setup, ready⟩ := h
  refine ⟨t.metadata.liveTimes, t.metadata.realTimes, t.metadata.startTime, t.metadata.changed, ?_⟩
  obtain ⟨m, counts, b, r⟩ := s
  obtain ⟨m', counts', b', r'⟩ := t
  cases m
  cases m'
  cases tally
  cases builder
  cases setup
  cases ready
  rfl

/-- Two spectra that were filled from like builders with the same events are like before. -/
theorem of_counted {s' t' : Spectrum} {b : Builder} {es : List Coincidence.Event}
    (h : Indistinct s t) (hs : Counted s b es s') (ht : Counted t b es t') :
    Indistinct s' t' where
  tally := by rw [ht.tally, hs.tally, h.tally, h.setup]
  builder := ht.builder.trans hs.builder.symm
  setup := by rw [ht.setup, hs.setup, h.setup]
  ready := by rw [ht.ready, hs.ready, h.ready]

theorem feed (h : Indistinct s t) (call : Feed) : Indistinct (s.feed call) (t.feed call) := by
  have ignored : ∀ {u : Spectrum} (spill : Spill), ¬ u.ready → u.feed (.push spill) = u := by
    intro u spill hu
    simp only [Spectrum.feed, push, hu, Bool.false_eq_true, if_false]
  cases call with
  | flush =>
      have flushed := flush_counted t
      rw [h.builder] at flushed
      exact h.of_counted (flush_counted s) flushed
  | push spill =>
      by_cases ready : s.ready = true
      · have fed := feed_counted (h.ready.trans ready) (.push spill)
        rw [h.builder, h.setup] at fed
        exact h.of_counted (feed_counted ready (.push spill)) fed
      · rw [ignored spill ready, ignored spill (by rwa [h.ready])]
        exact h

/-- A file that one of two such spectra can be read from is read into the other, too. -/
theorem load (h : Indistinct s t) {fileName format : String}
    {contents : Except FolderFault ByteArray} {s' : Spectrum}
    (read : s.load fileName format contents = .ok (some s')) :
    ∃ t', t.load fileName format contents = .ok (some t') ∧ Indistinct s' t' := by
  obtain ⟨liveTimes, realTimes, startTime, changed, rfl⟩ := h.exists_statistics
  rcases load_fixed read with ⟨one, l, fixed⟩ | ⟨two, cells, side, fixed⟩
  · obtain rfl := Option.some.inj (Except.ok.inj (read.symm.trans (fixed s one)))
    exact ⟨_, fixed _ one, rfl, rfl, rfl, rfl⟩
  · obtain rfl := Option.some.inj (Except.ok.inj (read.symm.trans (fixed s two)))
    exact ⟨_, fixed _ two, rfl, rfl, rfl, rfl⟩

theorem apply_load (h : Indistinct s t) (fileName format : String)
    (contents : Except FolderFault ByteArray) :
    Indistinct (s.apply (.load fileName format contents))
      (t.apply (.load fileName format contents)) := by
  have kept : ∀ {u : Spectrum}, (∀ u', u.load fileName format contents ≠ .ok (some u')) →
      u.apply (.load fileName format contents) = u := by
    intro u none
    rw [Spectrum.apply]
    rcases hu : u.load fileName format contents with fault | _ | u'
    · rfl
    · rfl
    · exact absurd hu (none u')
  by_cases read : ∃ s', s.load fileName format contents = .ok (some s')
  · obtain ⟨s', hs⟩ := read
    obtain ⟨t', ht, same⟩ := h.load hs
    rw [Spectrum.apply, Spectrum.apply, hs, ht]
    exact same
  · rw [kept fun s' hs => read ⟨s', hs⟩, kept]
    · exact h
    · intro t' ht
      obtain ⟨s', hs, -⟩ := h.symm.load ht
      exact read ⟨s', hs⟩

/-- An operation on either of two such spectra leaves two such spectra. -/
theorem apply (h : Indistinct s t) (op : Operation) : Indistinct (s.apply op) (t.apply op) := by
  obtain ⟨liveTimes, realTimes, startTime, changed, rfl⟩ := h.exists_statistics
  cases op with
  | feed call => exact h.feed call
  | load fileName format contents => exact h.apply_load fileName format contents
  | setUp m =>
      show Indistinct ((setUp s.axes m).toOption.getD s) ((setUp s.axes m).toOption.getD _)
      cases setUp s.axes m with
      | ok u => exact ⟨rfl, rfl, rfl, rfl⟩
      | error fault => exact h
  | append coords n =>
      show Indistinct
        (if coords.length = s.axes.dimensions ∧ n ≠ 0 then s.add coords n else s)
        (if coords.length = s.axes.dimensions ∧ n ≠ 0 then _ else _)
      split
      · exact ⟨rfl, rfl, rfl, rfl⟩
      · exact h
  | readText text =>
      simp only [Spectrum.apply, Spectrum.readText, axes]
      cases Counts.ofText s.counts.axes text with
      | ok read => exact ⟨rfl, rfl, rfl, rfl⟩
      | error fault => exact h
  | readRange bounds =>
      show Indistinct (if s.readsTouched then _ else _ : _ × Spectrum).2
        (if s.readsTouched then _ else _ : _ × Spectrum).2
      split
      · exact ⟨rfl, rfl, rfl, rfl⟩
      · exact h
  | checkSymmetry =>
      simp only [Spectrum.apply, checkSymmetry]
      cases s.counts.symmetric? with
      | some b => exact ⟨rfl, rfl, rfl, rfl⟩
      | none => exact h
  | reset => exact ⟨rfl, rfl, rfl, rfl⟩
  | setDetectors ds => exact ⟨rfl, rfl, rfl, rfl⟩
  | clearChanged => exact ⟨rfl, rfl, rfl, rfl⟩

theorem applyAll (h : Indistinct s t) (ops : List Operation) :
    Indistinct (s.applyAll ops) (t.applyAll ops) := by
  induction ops generalizing s t with
  | nil => exact h
  | cons op ops ih => exact ih (h.apply op)

end Indistinct

/-! ## Two divisions into spills -/

/-- Spills of a run that goes on leave spectra without a difference when they have the same
hits for the spectrum, in the same order. -/
theorem indistinct_pushes {s : Spectrum} (ready : s.ready = true) {spills spills' : List Spill}
    (running : ∀ spill ∈ spills, spill.isStop = false)
    (running' : ∀ spill ∈ spills', spill.isStop = false)
    (same : (spills.flatMap Spill.hits).filter (takes s.metadata) =
      (spills'.flatMap Spill.hits).filter (takes s.metadata)) :
    Indistinct (s.feedAll (spills.map .push)) (s.feedAll (spills'.map .push)) := by
  have setup : takes s.metadata.setup = takes s.metadata := rfl
  have fed := feedAll_counted ready (spills.map .push)
  have fed' := feedAll_counted ready (spills'.map .push)
  rw [setup, Builder.feedAll_pushes _ running] at fed
  rw [setup, Builder.feedAll_pushes _ running', ← same] at fed'
  exact Indistinct.of_counted ⟨rfl, rfl, rfl, rfl⟩ fed fed'

/-- Only the sequence of the hits on a gate matters for a spectrum that takes spills.  Spills
of a run that goes on leave the same counts, touched cells among them, the same totals and the
same open events when these hits are the same, and no operation afterwards brings out a
difference. -/
theorem counts_of_concerning_hits {s : Spectrum} (ready : s.ready = true)
    {spills spills' : List Spill} (running : ∀ spill ∈ spills, spill.isStop = false)
    (running' : ∀ spill ∈ spills', spill.isStop = false)
    (same : ((spills.flatMap Spill.hits).filter fun h => s.metadata.Concerns h) =
      (spills'.flatMap Spill.hits).filter fun h => s.metadata.Concerns h) :
    let t := s.feedAll (spills.map .push)
    let t' := s.feedAll (spills'.map .push)
    t'.counts = t.counts ∧ t'.metadata.total = t.metadata.total ∧
      t'.metadata.maxBin = t.metadata.maxBin ∧ t'.builder.opened = t.builder.opened ∧
      ∀ later, Indistinct (t.applyAll later) (t'.applyAll later) := by
  intro t t'
  rw [← filter_takes, ← filter_takes] at same
  have indistinct : Indistinct t t' := indistinct_pushes ready running running' same
  exact ⟨congrArg Tally.counts indistinct.tally, congrArg Tally.total indistinct.tally,
    congrArg Tally.maxBin indistinct.tally, congrArg Builder.opened indistinct.builder,
    indistinct.applyAll⟩

/-- A spectrum with an event that is still open. -/
def withOpenEvent : Spectrum :=
  (blank .two).applyAll
    [.setUp gatedSetup, .feed (.push { hits := [strike 1 95 0x3000] })]

/-- A hit that joins the open event, and one on another gate that closes it. -/
def oneSpill : List Spill := [{ hits := [strike 0 100 0x1200, strike 2 400 1] }]

/-- The same two hits in two spills, with a late hit on a channel without a gate before them,
one on no channel between them, and with the statistics of a start. -/
def twoDivided : List Spill :=
  [{ hits := [strike 7 9000 1, strike 0 100 0x1200]
     stats := [{ phase := .start, source := 0, items := [("live_time", 2.0)],
                 labTime := some 1000 }] },
    { hits := [strike (-1) 9000 1, strike 2 400 1] }]

theorem counts_of_concerning_hits_twoDivided :
    withOpenEvent.ready = true ∧ (∀ spill ∈ oneSpill, spill.isStop = false) ∧
      (∀ spill ∈ twoDivided, spill.isStop = false) ∧
      ((oneSpill.flatMap Spill.hits).filter fun h => withOpenEvent.metadata.Concerns h) =
        (twoDivided.flatMap Spill.hits).filter (fun h => withOpenEvent.metadata.Concerns h) ∧
      (withOpenEvent.feedAll (oneSpill.map .push)).counts.count [0x12, 0x30] = 1 ∧
      (withOpenEvent.feedAll (twoDivided.map .push)).counts.count [0x12, 0x30] = 1 := by
  have ready : withOpenEvent.ready = true := by decide +kernel
  have running : ∀ spill ∈ oneSpill, spill.isStop = false := by decide
  have running' : ∀ spill ∈ twoDivided, spill.isStop = false := by decide
  have same : ((oneSpill.flatMap Spill.hits).filter fun h => withOpenEvent.metadata.Concerns h) =
      (twoDivided.flatMap Spill.hits).filter fun h => withOpenEvent.metadata.Concerns h := by
    decide +kernel
  have counted : (withOpenEvent.feedAll (oneSpill.map .push)).counts.count [0x12, 0x30] = 1 := by
    decide +kernel
  obtain ⟨counts, -⟩ := counts_of_concerning_hits ready running running' same
  refine ⟨ready, running, running', same, counted, ?_⟩
  rw [counts]
  exact counted

end Spectrum

end ListMode
