import ListMode.Proofs.Coincidence.Conservation
import ListMode.Spectrum.Basic

/-!
# Feeding a spectrum

A spectrum is fed by two calls: a spill is pushed, or the open events are flushed
(`Feed`).  What a sequence of calls does is read off two machines that run side
by side and do not look at each other.

* The builder reads the hits the spectrum takes and closes events
  (`Builder.feedAll`).
* The *tally*, that is the counts with the two running totals of counting, takes
  the closed events one after the other (`Tally.countAll`).

`Spectrum.Counted` says that a spectrum went from one state to another in this
way, with a given builder and given events.  Every operation that feeds has a
lemma of this form, and the lemmas compose (`Counted.trans`) up to a sequence of
calls (`feedAll_counted`).  Both machines read of the metadata only what no call
changes (`Metadata.setup`), so the statistics that come with a spill do not
matter to either.
-/

namespace ListMode

/-- A call that feeds a spectrum. -/
inductive Feed where
  /-- A spill is pushed. -/
  | push (spill : Spill)
  /-- The open events are closed and counted. -/
  | flush

/-- The hits that come with a call. -/
def Feed.hits : Feed → List Hit
  | .push spill => spill.hits
  | .flush => []

/-! ## Feeding a builder -/

namespace Coincidence.Builder

/-- What a call makes of the builder, and the events it closes. -/
def feed (takes : Hit → Bool) (b : Builder) : Feed → Builder × List Event
  | .push spill =>
      let read := b.pushAll (spill.hits.filter takes)
      if spill.isStop then (read.1.flush.1, read.2 ++ read.1.flush.2) else read
  | .flush => b.flush

/-- What calls make of the builder, and the events they close. -/
def feedAll (takes : Hit → Bool) (b : Builder) : List Feed → Builder × List Event
  | [] => (b, [])
  | c :: cs =>
      let first := b.feed takes c
      let rest := feedAll takes first.1 cs
      (rest.1, first.2 ++ rest.2)

variable (takes : Hit → Bool)

theorem feedAll_append (b : Builder) (cs ds : List Feed) :
    b.feedAll takes (cs ++ ds) =
      (((b.feedAll takes cs).1.feedAll takes ds).1,
        (b.feedAll takes cs).2 ++ ((b.feedAll takes cs).1.feedAll takes ds).2) := by
  induction cs generalizing b with
  | nil => rfl
  | cons c cs ih =>
      simp only [List.cons_append, feedAll]
      rw [ih]
      simp only [List.append_assoc]

theorem hitsOf_feed_perm (b : Builder) (c : Feed) :
    (hitsOf ((b.feed takes c).2 ++ (b.feed takes c).1.opened)).Perm
      ((c.hits.filter takes).filter Hit.routed ++ hitsOf b.opened) := by
  cases c with
  | flush =>
      rw [feed, opened_flush, List.append_nil]
      exact List.Perm.refl _
  | push spill =>
      have read := pushAll_perm b (spill.hits.filter takes)
      simp only [feed]
      split
      · rw [opened_flush, List.append_nil]
        exact read
      · exact read

/-- Calls end with the hits that were open before and all that were taken. -/
theorem hitsOf_feedAll_perm (b : Builder) (cs : List Feed) :
    (hitsOf ((b.feedAll takes cs).2 ++ (b.feedAll takes cs).1.opened)).Perm
      (((cs.flatMap Feed.hits).filter takes).filter Hit.routed ++ hitsOf b.opened) := by
  induction cs generalizing b with
  | nil => exact List.Perm.refl _
  | cons c cs ih =>
      have one := hitsOf_feed_perm takes b c
      have rest := ih (b.feed takes c).1
      rw [hitsOf_append] at one
      simp only [feedAll, List.append_assoc, hitsOf_append, List.flatMap_cons,
        List.filter_append] at rest ⊢
      refine (rest.append_left _).trans ?_
      refine (List.perm_append_comm_assoc _ _ _).trans ?_
      refine (one.append_left _).trans ?_
      exact List.perm_append_comm_assoc _ _ _

theorem feed_apart {b : Builder} (hb : b.Apart) (c : Feed) :
    (b.feed takes c).1.Apart ∧ ∀ e ∈ (b.feed takes c).2, e.Apart := by
  have flushed : ∀ d : Builder, d.Apart → d.flush.1.Apart ∧ ∀ e ∈ d.flush.2, e.Apart :=
    fun d hd => ⟨fun e he => absurd he List.not_mem_nil, hd⟩
  cases c with
  | flush => exact flushed b hb
  | push spill =>
      obtain ⟨hopen, hclosed⟩ := pushAll_apart hb (spill.hits.filter takes)
      simp only [feed]
      split
      · exact ⟨(flushed _ hopen).1, List.forall_mem_append.2 ⟨hclosed, hopen⟩⟩
      · exact ⟨hopen, hclosed⟩

theorem feedAll_apart {b : Builder} (hb : b.Apart) (cs : List Feed) :
    (b.feedAll takes cs).1.Apart ∧ ∀ e ∈ (b.feedAll takes cs).2, e.Apart := by
  induction cs generalizing b with
  | nil => exact ⟨hb, fun e he => nomatch he⟩
  | cons c cs ih =>
      obtain ⟨hopen, hclosed⟩ := feed_apart takes hb c
      obtain ⟨hopen', hclosed'⟩ := ih hopen
      exact ⟨hopen', List.forall_mem_append.2 ⟨hclosed, hclosed'⟩⟩

/-- How hits are divided into spills makes no difference to a builder, as long as
no spill is a stop. -/
theorem feedAll_pushes {spills : List Spill} (h : ∀ spill ∈ spills, spill.isStop = false) :
    ∀ b : Builder, b.feedAll takes (spills.map .push) =
      b.pushAll ((spills.flatMap Spill.hits).filter takes) := by
  induction spills with
  | nil => exact fun _ => rfl
  | cons spill spills ih =>
      intro b
      rw [List.forall_mem_cons] at h
      rw [List.map_cons, feedAll, List.flatMap_cons, List.filter_append, pushAll_append]
      simp only [feed, h.1, Bool.false_eq_true, if_false, ih h.2]

/-- What such spills close when calls come after them that only flush. -/
theorem snd_feedAll_pushes_append {spills : List Spill} (h : ∀ spill ∈ spills, spill.isStop = false)
    {ending : List Feed} (hending : ∀ b : Builder, (b.feedAll takes ending).2 = b.flush.2)
    (b : Builder) : (b.feedAll takes (spills.map .push ++ ending)).2 =
      (b.pushAll ((spills.flatMap Spill.hits).filter takes)).2 ++
        (b.pushAll ((spills.flatMap Spill.hits).filter takes)).1.flush.2 := by
  rw [feedAll_append, feedAll_pushes takes h, hending]

theorem snd_feedAll_flush (b : Builder) : (b.feedAll takes [.flush]).2 = b.flush.2 :=
  List.append_nil _

/-- A spill without hits closes before a flush what the flush would close. -/
theorem snd_feedAll_push_flush (spill : Spill) (h : spill.hits = []) (b : Builder) :
    (b.feedAll takes [.push spill, .flush]).2 = b.flush.2 := by
  simp only [feedAll, feed, h, List.filter_nil, pushAll, List.append_nil]
  split
  · exact List.append_nil _
  · exact List.nil_append _

end Coincidence.Builder

open Coincidence (Builder Event)

/-! ## Tallies -/

/-- The cell an event is counted in, when it passes the gates. -/
def Metadata.cellFor? (m : Metadata) (axes : Axes) (e : Event) : Option (List Bin) :=
  if e.passes m.coincidence m.anticoincidence then Counts.cellOf? axes m e else none

/-- What of metadata stays while a spectrum is fed. -/
def Metadata.setup (m : Metadata) : Metadata :=
  { m with
    total := 0
    maxBin := 0
    liveTimes := []
    realTimes := []
    startTime := none
    changed := false }

/-- The counts of a spectrum with the totals that go with them. -/
structure Tally where
  /-- The counts. -/
  counts : Counts
  /-- The number of events counted. -/
  total : Nat
  /-- The largest number met on any axis. -/
  maxBin : Bin

namespace Tally

/-- Counts an event. -/
def count (m : Metadata) (t : Tally) (e : Event) : Tally :=
  match m.cellFor? t.counts.axes e with
  | some coords => ⟨t.counts.bump m.buffered 1 coords, t.total + 1, coords.foldl max t.maxBin⟩
  | none => t

/-- Counts events one after the other. -/
def countAll (m : Metadata) (t : Tally) (es : List Event) : Tally := es.foldl (count m) t

theorem countAll_append (m : Metadata) (t : Tally) (es fs : List Event) :
    t.countAll m (es ++ fs) = (t.countAll m es).countAll m fs :=
  List.foldl_append

end Tally

namespace Spectrum

/-- The tally of a spectrum. -/
def tally (s : Spectrum) : Tally := ⟨s.counts, s.metadata.total, s.metadata.maxBin⟩

/-- One call. -/
def feed (s : Spectrum) : Feed → Spectrum
  | .push spill => s.push spill
  | .flush => s.flush

/-- Calls one after the other. -/
def feedAll (s : Spectrum) (cs : List Feed) : Spectrum := cs.foldl feed s

/-- `s'` is `s` with the builder `b` and with the events `es` counted; nothing else
of the two differs but statistics. -/
structure Counted (s : Spectrum) (b : Builder) (es : List Event) (s' : Spectrum) : Prop where
  /-- The builder. -/
  builder : s'.builder = b
  /-- The events were counted. -/
  tally : s'.tally = s.tally.countAll s.metadata.setup es
  /-- The setup is the same. -/
  setup : s'.metadata.setup = s.metadata.setup
  /-- The spectrum takes spills as before. -/
  ready : s'.ready = s.ready

theorem Counted.trans {s s' s'' : Spectrum} {b b' : Builder} {es es' : List Event}
    (h : Counted s b es s') (h' : Counted s' b' es' s'') : Counted s b' (es ++ es') s'' where
  builder := h'.builder
  tally := by rw [h'.tally, h.tally, h.setup, Tally.countAll_append]
  setup := h'.setup.trans h.setup
  ready := h'.ready.trans h.ready

theorem countEvent_eq (s : Spectrum) (e : Event) :
    s.countEvent e = match s.metadata.cellFor? s.axes e with
      | some coords => s.add coords 1
      | none => s := by
  rw [countEvent, Metadata.cellFor?]
  split
  · rfl
  · rfl

theorem count_tally (s : Spectrum) (e : Event) :
    s.tally.count s.metadata.setup e = match s.metadata.cellFor? s.axes e with
      | some coords => (s.add coords 1).tally
      | none => s.tally :=
  rfl

theorem countEvent_counted (s : Spectrum) (e : Event) :
    Counted s s.builder [e] (s.countEvent e) := by
  have one : s.tally.countAll s.metadata.setup [e] = s.tally.count s.metadata.setup e := rfl
  rw [countEvent_eq]
  cases hc : s.metadata.cellFor? s.axes e with
  | none =>
      refine ⟨rfl, ?_, rfl, rfl⟩
      rw [one, count_tally, hc]
  | some coords =>
      refine ⟨rfl, ?_, rfl, rfl⟩
      rw [one, count_tally, hc]

theorem accumulate_counted (s : Spectrum) (es : List Event) :
    Counted s s.builder es (s.accumulate es) := by
  induction es generalizing s with
  | nil => exact ⟨rfl, rfl, rfl, rfl⟩
  | cons e es ih =>
      have first := countEvent_counted s e
      have rest := ih (s.countEvent e)
      rw [first.builder] at rest
      exact first.trans rest

theorem pushHit_counted (s : Spectrum) (h : Hit) :
    Counted s (s.builder.push h).1 (s.builder.push h).2 (s.pushHit h) := by
  obtain ⟨builder, tally, setup, ready⟩ :=
    accumulate_counted { s with builder := (s.builder.push h).1 } (s.builder.push h).2
  exact ⟨builder, tally, setup, ready⟩

theorem pushHits_counted (s : Spectrum) (hs : List Hit) :
    Counted s (s.builder.pushAll hs).1 (s.builder.pushAll hs).2 (hs.foldl pushHit s) := by
  induction hs generalizing s with
  | nil => exact ⟨rfl, rfl, rfl, rfl⟩
  | cons h hs ih =>
      have first := pushHit_counted s h
      have rest := ih (s.pushHit h)
      rw [first.builder] at rest
      exact first.trans rest

theorem flush_counted (s : Spectrum) :
    Counted s s.builder.flush.1 s.builder.flush.2 s.flush := by
  obtain ⟨builder, tally, setup, ready⟩ :=
    accumulate_counted { s with builder := s.builder.flush.1 } s.builder.flush.2
  exact ⟨builder, tally, setup, ready⟩

/-- Statistics change neither the setup nor the totals of counting. -/
theorem mergeSnapshot_kept (m : Metadata) (shot : Snapshot) :
    (m.mergeSnapshot shot).setup = m.setup ∧ (m.mergeSnapshot shot).total = m.total ∧
      (m.mergeSnapshot shot).maxBin = m.maxBin := by
  rw [Metadata.mergeSnapshot]
  split
  · exact ⟨rfl, rfl, rfl⟩
  · exact ⟨rfl, rfl, rfl⟩

theorem mergeStats_counted (s : Spectrum) (stats : List Snapshot) :
    Counted s s.builder []
      { s with metadata := stats.foldl Metadata.mergeSnapshot s.metadata } := by
  have kept : ∀ m : Metadata,
      (stats.foldl Metadata.mergeSnapshot m).setup = m.setup ∧
        (stats.foldl Metadata.mergeSnapshot m).total = m.total ∧
        (stats.foldl Metadata.mergeSnapshot m).maxBin = m.maxBin := by
    induction stats with
    | nil => exact fun m => ⟨rfl, rfl, rfl⟩
    | cons shot stats ih =>
        intro m
        obtain ⟨setup, total, maxBin⟩ := mergeSnapshot_kept m shot
        obtain ⟨setup', total', maxBin'⟩ := ih (m.mergeSnapshot shot)
        exact ⟨setup'.trans setup, total'.trans total, maxBin'.trans maxBin⟩
  obtain ⟨setup, total, maxBin⟩ := kept s.metadata
  refine ⟨rfl, ?_, setup, rfl⟩
  rw [tally, tally, total, maxBin]
  rfl

theorem Counted.mergeStats {s s' : Spectrum} {b : Builder} {es : List Event}
    (h : Counted s b es s') (stats : List Snapshot) :
    Counted s b es { s' with metadata := stats.foldl Metadata.mergeSnapshot s'.metadata } := by
  have merged := h.trans (mergeStats_counted s' stats)
  rw [List.append_nil] at merged
  exact ⟨h.builder, merged.tally, merged.setup, merged.ready⟩

theorem Counted.flush {s s' : Spectrum} {b : Builder} {es : List Event} (h : Counted s b es s') :
    Counted s b.flush.1 (es ++ b.flush.2) s'.flush := by
  have flushed := h.trans (flush_counted s')
  rwa [h.builder] at flushed

theorem feed_counted {s : Spectrum} (hs : s.ready = true) (c : Feed) :
    Counted s (s.builder.feed (takes s.metadata.setup) c).1
      (s.builder.feed (takes s.metadata.setup) c).2 (s.feed c) := by
  cases c with
  | flush => exact flush_counted s
  | push spill =>
      have hits := pushHits_counted s (spill.hits.filter (takes s.metadata))
      have stats := hits.mergeStats spill.stats
      have same : takes s.metadata.setup = takes s.metadata := rfl
      simp only [feed, push, hs, if_true, Builder.feed, same]
      split
      · exact stats.flush
      · exact stats

/-- A ready spectrum that is fed is the spectrum with the events counted that its
builder closes. -/
theorem feedAll_counted {s : Spectrum} (hs : s.ready = true) (cs : List Feed) :
    Counted s (s.builder.feedAll (takes s.metadata.setup) cs).1
      (s.builder.feedAll (takes s.metadata.setup) cs).2 (s.feedAll cs) := by
  induction cs generalizing s with
  | nil => exact ⟨rfl, rfl, rfl, rfl⟩
  | cons c cs ih =>
      have first := feed_counted hs c
      have rest := ih (first.ready.trans hs)
      rw [first.builder, first.setup] at rest
      exact first.trans rest

/-- The events that calls close. -/
def closedBy (s : Spectrum) (cs : List Feed) : List Event :=
  (s.builder.feedAll (takes s.metadata) cs).2

theorem tally_feedAll {s : Spectrum} (hs : s.ready = true) (cs : List Feed) :
    (s.feedAll cs).tally = s.tally.countAll s.metadata.setup (s.closedBy cs) :=
  (feedAll_counted hs cs).tally

end Spectrum

end ListMode
