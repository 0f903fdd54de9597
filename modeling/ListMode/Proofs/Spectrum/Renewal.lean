import ListMode.Proofs.Spectrum.Files
import ListMode.Proofs.Spectrum.Growth

/-!
# What is left of a spectrum's past

A setup takes away the counts and the open events, but the totals that come with its
metadata stay, those of a run among them when the metadata are a copy of a filled
spectrum's (`Spectrum.setUp_carries_run`).  The total is then ahead of the sum of the
counts by the total that came along, and stays ahead while counts are only added
(`Spectrum.total_apply`).

What a file is read as is fixed by the file but for the window and the buffering
(`Spectrum.load_fixed`).  With one axis the start time and the result of the check of
symmetry are also left from before (`Spectrum.load_alike`).
-/

namespace ListMode

/-! ## Setups -/

/-- The run that two metadata tell of is the same. -/
structure Metadata.SameRun (m m' : Metadata) : Prop where
  total : m'.total = m.total
  maxBin : m'.maxBin = m.maxBin
  symmetric : m'.symmetric = m.symmetric
  liveTimes : m'.liveTimes = m.liveTimes
  realTimes : m'.realTimes = m.realTimes
  startTime : m'.startTime = m.startTime

namespace Spectrum

variable {s : Spectrum} {op : Operation}

/-- Adding raises the total by no more than is posted. -/
theorem total_apply_le (adds : op.adds = true) :
    (s.apply op).metadata.total ≤ s.metadata.total + s.posted op := by
  cases op with
  | feed call =>
      obtain ⟨b, counted⟩ := closes_counted s call
      have total : (s.feed call).metadata.total = (s.feed call).tally.total := rfl
      rw [apply, total, counted.tally, Tally.total_countAll]
      exact Nat.le_refl _
  | append coords n =>
      rw [apply, append]
      split
      · next named =>
          have posted : s.posted (.append coords n) = n := if_pos named.1
          rw [posted]
          exact Nat.le_refl _
      · exact Nat.le_add_right _ _
  | _ => cases adds

/-- As long as counts are only added, the total stays as far ahead of their sum as it is. -/
theorem total_apply (keeps : ∀ u, ¬ s.Replaces op u) {ahead : Nat}
    (total : s.metadata.total = ahead + s.counts.sum)
    (room : s.counts.sum + s.posted op ≤ countLimit) :
    (s.apply op).metadata.total = ahead + (s.apply op).counts.sum ∧
      (s.apply op).counts.sum ≤ s.counts.sum + s.posted op := by
  cases effect s op with
  | adds adds =>
      have grows := grows_apply (s := s) adds
      have le := total_apply_le (s := s) adds
      have sum : (s.apply op).counts.sum + s.metadata.total =
          s.counts.sum + (s.apply op).metadata.total :=
        grows.sum (Nat.le_trans (Nat.add_le_add_left (Nat.sub_le_iff_le_add'.2 le) _) room)
      omega
  | reads bounds h =>
      subst h
      rw [apply, readRange]
      split
      · have same : s.counts.forgetTouched.sum = s.counts.sum := Counts.sum_forgetTouched _
        exact ⟨by rw [same]; exact total, by rw [same]; exact Nat.le_add_right _ _⟩
      · exact ⟨total, Nat.le_add_right _ _⟩
  | replaces h => exact absurd h (keeps _)
  | leaves alike =>
      have same : (s.apply op).metadata.total = s.metadata.total := by rw [alike.metadata]
      rw [alike.counts, same]
      exact ⟨total, Nat.le_add_right _ _⟩

theorem total_applyAll {ops : List Operation}
    (keeps : s.EachStep (fun s op => ∀ u, ¬ s.Replaces op u) ops) {ahead : Nat}
    (total : s.metadata.total = ahead + s.counts.sum)
    (room : s.counts.sum + s.postedBy ops ≤ countLimit) :
    (s.applyAll ops).metadata.total = ahead + (s.applyAll ops).counts.sum := by
  induction ops generalizing s with
  | nil => exact total
  | cons op ops ih =>
      rw [postedBy] at room
      obtain ⟨first, sum⟩ := total_apply keeps.1 total (by omega)
      exact ih keeps.2 first (by omega)

/-- What a setup makes of a spectrum, when its metadata are accepted. -/
theorem apply_setUp {m : Metadata} (accepted : setupFault? s.axes m = none) :
    s.apply (.setUp m) =
      { metadata :=
          { m with
            kind := some s.axes
            detectors := Metadata.resizeDetectors s.axes.dimensions m.detectors }
        counts := .zero s.axes
        builder := .ofWindow m.window
        ready := true } := by
  show (setUp s.axes m).toOption.getD s = _
  rw [setUp, accepted]
  rfl

/-- A setup takes the counts and the open events away.  The run that its metadata tell of
stays, so that resetting afterwards is setting up with metadata that tell of none.  The total
is ahead of the sum of the counts by the total that came along, until the counts are replaced. -/
theorem setUp_carries_run (s : Spectrum) {m : Metadata} (accepted : setupFault? s.axes m = none) :
    let t := s.apply (.setUp m)
    t.counts = .zero s.axes ∧ t.builder.opened = [] ∧ m.SameRun t.metadata ∧
      t.reset = s.apply (.setUp m.forgetRun) ∧
      ∀ ops, t.EachStep (fun s op => ∀ u, ¬ s.Replaces op u) ops →
        m.total + t.postedBy ops < 2 ^ 64 →
        (t.applyAll ops).metadata.total =
          m.total + ((t.applyAll ops).counts.entries.map Prod.snd).sum := by
  intro t
  have forgotten : setupFault? s.axes m.forgetRun = none := accepted
  have ht : t = _ := apply_setUp accepted
  refine ⟨by rw [ht], by rw [ht]; rfl, by rw [ht]; exact ⟨rfl, rfl, rfl, rfl, rfl, rfl⟩, ?_, ?_⟩
  · rw [apply_setUp forgotten, ht]
    simp only [Spectrum.reset, Spectrum.axes, Counts.axes_zero]
    rfl
  · intro ops keeps room
    have empty : t.counts.sum = 0 := by
      rw [ht]
      exact Counts.sum_zero s.axes
    have total : t.metadata.total = m.total := by rw [ht]
    refine total_applyAll keeps (by rw [total, empty]; rfl) ?_
    rw [empty, countLimit, UInt64.size]
    omega

/-- A spectrum in use: a run that was started, one hit that is still open and counts added by
hand. -/
def lineInUse : Spectrum :=
  (blank .one).applyAll
    [.setUp { bits := 8, add := .ofChannels [0], window := 10.0 },
      .feed (.push
        { hits := [strike 0 100 0x1234]
          stats := [{ phase := .start, source := 0, items := [("live_time", 2.0)],
                      labTime := some 1000 }] }),
      .append [200] 7]

theorem setUp_carries_run_lineInUse :
    setupFault? lineInUse.axes lineInUse.metadata = none ∧
      let t := lineInUse.apply (.setUp lineInUse.metadata)
      t.EachStep (fun s op => ∀ u, ¬ s.Replaces op u) [.append [3] 4] ∧
        lineInUse.metadata.total + t.postedBy [.append [3] 4] = 11 ∧
        (t.apply (.append [3] 4)).counts.entries = [([3], 4)] ∧
        (t.apply (.append [3] 4)).metadata.total = 11 := by
  have accepted : setupFault? lineInUse.axes lineInUse.metadata = none := by decide +kernel
  have keeps : (lineInUse.apply (.setUp lineInUse.metadata)).EachStep
      (fun s op => ∀ u, ¬ s.Replaces op u) [.append [3] 4] :=
    ⟨fun _ h => (nomatch h), trivial⟩
  have posted : lineInUse.metadata.total +
      (lineInUse.apply (.setUp lineInUse.metadata)).postedBy [.append [3] 4] = 11 := by
    decide +kernel
  have entries : ((lineInUse.apply (.setUp lineInUse.metadata)).apply
      (.append [3] 4)).counts.entries = [([3], 4)] := by decide +kernel
  have carried : lineInUse.metadata.total = 7 := by decide +kernel
  obtain ⟨-, -, -, -, total⟩ := setUp_carries_run lineInUse accepted
  have total := total [.append [3] 4] keeps (by rw [posted]; decide)
  refine ⟨accepted, keeps, posted, entries, total.trans ?_⟩
  show lineInUse.metadata.total + ((((lineInUse.apply (.setUp lineInUse.metadata)).apply
      (.append [3] 4)).counts.entries).map Prod.snd).sum = 11
  rw [entries, carried]
  rfl

/-- Set up with its own metadata, a spectrum in use has no counts left, but all of its run. -/
theorem lineInUse_setUp :
    setupFault? lineInUse.axes lineInUse.metadata = none ∧
      let t := lineInUse.apply (.setUp lineInUse.metadata)
      t.counts.entries = [] ∧ t.metadata.total = 7 ∧ t.metadata.maxBin = 200 ∧
        t.metadata.liveTimes ≠ [] ∧ t.metadata.startTime = some 1000 := by
  have times : ((lineInUse.apply (.setUp lineInUse.metadata)).metadata.liveTimes.map Prod.fst) =
      [0] := by decide +kernel
  refine ⟨by decide +kernel, by decide +kernel, by decide +kernel, by decide +kernel, ?_, ?_⟩
  · intro none
    rw [none] at times
    cases times
  · decide +kernel

/-! ## Files -/

/-- What a file is read as does not depend on the spectrum, but for the metadata that are kept. -/
theorem load_fixed {fileName format : String} {contents : Except FolderFault ByteArray}
    {s t : Spectrum} (h : s.load fileName format contents = .ok (some t)) :
    (s.axes = .one ∧ ∃ l, ∀ u : Spectrum, u.axes = .one →
        u.load fileName format contents =
          .ok (some (replaced (.line l.cells) (listingMetadata u.metadata fileName l)))) ∨
      (s.axes = .two ∧ ∃ cells side, ∀ u : Spectrum, u.axes = .two →
        u.load fileName format contents =
          .ok (some (replaced (.plane cells ∅)
            (gridMetadata u.metadata fileName cells side)))) := by
  unfold load at h
  split at h
  · next hone hformat =>
      split at h
      · cases h
      · split at h
        · cases h
        · cases h
        · next l hread =>
            refine .inl ⟨hone, l, fun u hu => ?_⟩
            rw [load, hu, hformat]
            dsimp only
            rw [hread]
  · next width htwo hformat =>
      split at h
      · cases h
      · split at h
        · cases h
        · next cells side hread =>
            refine .inr ⟨htwo, cells, side, fun u hu => ?_⟩
            rw [load, hu, hformat]
            dsimp only
            rw [hread]
  · cases h

/-- Two spectra with the same axes, window and buffering that were read from one file have the
same counts, no open events and nothing touched, and their metadata differ in no more than the
start time and the result of the check of symmetry.  They are the same if and only if they have
two axes, or these two were the same before. -/
theorem load_alike {s₁ s₂ t₁ t₂ : Spectrum} (axes : s₁.axes = s₂.axes)
    (window : s₁.metadata.window = s₂.metadata.window)
    (buffered : s₁.metadata.buffered = s₂.metadata.buffered) {fileName format : String}
    {contents : Except FolderFault ByteArray}
    (h₁ : s₁.load fileName format contents = .ok (some t₁))
    (h₂ : s₂.load fileName format contents = .ok (some t₂)) :
    t₁.counts = t₂.counts ∧ t₁.counts.touchedEntries = [] ∧
      t₁.builder = t₂.builder ∧ t₁.builder.opened = [] ∧ t₁.ready = t₂.ready ∧
      t₁.metadata = { t₂.metadata with
        symmetric := t₁.metadata.symmetric
        startTime := t₁.metadata.startTime } ∧
      (t₁ = t₂ ↔ s₁.axes = .two ∨
        s₁.metadata.symmetric = s₂.metadata.symmetric ∧
          s₁.metadata.startTime = s₂.metadata.startTime) := by
  rcases load_fixed h₁ with ⟨one, l, read⟩ | ⟨two, cells, side, read⟩
  · obtain rfl := Option.some.inj (Except.ok.inj (h₁.symm.trans (read s₁ one)))
    obtain rfl := Option.some.inj (Except.ok.inj (h₂.symm.trans (read s₂ (axes ▸ one))))
    have metadata : listingMetadata s₁.metadata fileName l =
        { listingMetadata s₂.metadata fileName l with
          symmetric := s₁.metadata.symmetric
          startTime := s₁.metadata.startTime } := by
      simp only [listingMetadata, window, buffered]
    refine ⟨rfl, rfl, by simp only [replaced, listingMetadata, window], rfl, rfl, metadata, ?_⟩
    constructor
    · intro same
      exact .inr ⟨congrArg (·.metadata.symmetric) same, congrArg (·.metadata.startTime) same⟩
    · rintro (two | ⟨symmetric, startTime⟩)
      · cases one.symm.trans two
      · simp only [listingMetadata, window, buffered, symmetric, startTime]
  · obtain rfl := Option.some.inj (Except.ok.inj (h₁.symm.trans (read s₁ two)))
    obtain rfl := Option.some.inj (Except.ok.inj (h₂.symm.trans (read s₂ (axes ▸ two))))
    have metadata : gridMetadata s₁.metadata fileName cells side =
        gridMetadata s₂.metadata fileName cells side := by
      simp only [gridMetadata, window, buffered]
    rw [metadata]
    exact ⟨rfl, rfl, rfl, rfl, rfl, rfl, fun _ => .inl two, fun _ => rfl⟩

/-- A setup, a start at 1000 and a count added by hand. -/
def started (axes : Axes) : Spectrum :=
  (blank axes).applyAll
    [.setUp
        { dimensions := axes.dimensions
          bits := 8
          add := .ofChannels (List.range axes.dimensions) },
      .feed (.push { stats := [{ phase := .start, source := 0, labTime := some 1000 }] }),
      .append (List.replicate axes.dimensions 200) 7]

theorem load_alike_grid :
    (blank .two).axes = (started .two).axes ∧
      (blank .two).metadata.window = (started .two).metadata.window ∧
      (blank .two).metadata.buffered = (started .two).metadata.buffered ∧
      (blank .two).metadata.startTime ≠ (started .two).metadata.startTime ∧
      ∃ t, (blank .two).load "g.mat" "mat" (.ok smallGrid) = .ok (some t) ∧
        (started .two).load "g.mat" "mat" (.ok smallGrid) = .ok (some t) := by
  have axes : (blank .two).axes = (started .two).axes := rfl
  have window : (blank .two).metadata.window = (started .two).metadata.window := rfl
  have buffered : (blank .two).metadata.buffered = (started .two).metadata.buffered := rfl
  obtain ⟨t₁, h₁⟩ : ∃ t, (blank .two).load "g.mat" "mat" (.ok smallGrid) = .ok (some t) :=
    ⟨_, rfl⟩
  obtain ⟨t₂, h₂⟩ : ∃ t, (started .two).load "g.mat" "mat" (.ok smallGrid) = .ok (some t) :=
    ⟨_, rfl⟩
  obtain ⟨-, -, -, -, -, -, same⟩ := load_alike axes window buffered h₁ h₂
  obtain rfl := same.2 (.inl rfl)
  exact ⟨axes, window, buffered, by decide +kernel, t₁, h₁, h₂⟩

/-- A listing of two bins, with blank lines for the times. -/
def shortListing : ByteArray := ⟨#[10, 10, 48, 10, 53, 10]⟩

/-- With one axis the start time is left from before. -/
theorem start_kept_by_listing :
    (blank .one).axes = (started .one).axes ∧
      (blank .one).metadata.window = (started .one).metadata.window ∧
      (blank .one).metadata.buffered = (started .one).metadata.buffered ∧
      ∃ t₁ t₂, (blank .one).load "h.tka" "tka" (.ok shortListing) = .ok (some t₁) ∧
        (started .one).load "h.tka" "tka" (.ok shortListing) = .ok (some t₂) ∧
        t₁.metadata.startTime = none ∧ t₂.metadata.startTime = some 1000 :=
  ⟨rfl, rfl, rfl, _, _, rfl, rfl, rfl, rfl⟩

end Spectrum

end ListMode
