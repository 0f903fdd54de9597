import ListMode.Proofs.Coincidence.Conservation
import ListMode.Proofs.Time.Nanoseconds
import ListMode.Proofs.Time.Sorting
import Mathlib.Data.List.TakeWhile

/-!
# Closing events early

A builder closes an event as soon as a hit has run past it, so that it need not search
all events it ever opened.  For hits of one clock, read in the order of their ticks,
this is not seen in the events that come out.  They are those of a grouping that closes
nothing (`grouped`), in the same order (`Builder.pushAll_grouped`).

The events closed so far and the open ones are all events of that grouping, and no
closed event takes a hit any more (`Builder.Settled`).  An event is closed when a hit is
out of its window, and no later hit is in the window again, since the distance in
nanoseconds does not fall as the ticks grow (`Timestamp.nsSince_le_of_le`).  That events
are only closed at the front is what keeps their order.
-/

namespace ListMode.Coincidence

/-! ## Grouping without closing -/

/-- The events after a hit when none is closed: the first that accepts the hit takes it,
and when there is none, the hit opens one at the end. -/
def joinFirst (window : Float) (h : Hit) : List Event → List Event
  | [] => [.opening h]
  | e :: es => if e.accepts h window then e.add h :: es else e :: joinFirst window h es

/-- The events that hits make, read one after the other, when none is closed. -/
def grouped (window : Float) (hs : List Hit) : List Event :=
  hs.foldl (fun es h => joinFirst window h es) []

section

variable {window : Float} {h : Hit}

theorem joinFirst_append {front : List Event}
    (refused : ∀ e ∈ front, e.accepts h window = false) (back : List Event) :
    joinFirst window h (front ++ back) = front ++ joinFirst window h back := by
  induction front with
  | nil => rfl
  | cons e front ih =>
      rw [List.forall_mem_cons] at refused
      rw [List.cons_append, joinFirst, refused.1, if_neg Bool.false_ne_true, ih refused.2,
        List.cons_append]

theorem joinFirst_eq_modify {es : List Event} {i : Nat}
    (found : es.findIdx? (·.accepts h window) = some i) :
    joinFirst window h es = es.modify i (·.add h) := by
  induction es generalizing i with
  | nil => cases found
  | cons e es ih =>
      rw [List.findIdx?_cons] at found
      rw [joinFirst]
      split at found
      · next accepted =>
          obtain rfl := Option.some.inj found
          rw [if_pos accepted, List.modify_zero_cons]
      · next refused =>
          obtain ⟨j, hj, rfl⟩ := Option.map_eq_some_iff.1 found
          rw [if_neg refused, ih hj, List.modify_succ_cons]

/-- When no event starts after a hit, the builder puts it where the grouping does. -/
theorem toList_place_eq_joinFirst {es : RingBuffer Event}
    (started : ∀ e ∈ es.toList, e.startsBy h.time = true) :
    (Builder.place window h es).toList = joinFirst window h es.toList := by
  cases found : es.toList.findIdx? (·.accepts h window) with
  | some i => rw [Builder.toList_place found, joinFirst_eq_modify found]
  | none =>
      have refused := joinFirst_append (List.findIdx?_eq_none_iff.1 found) []
      rw [List.append_nil] at refused
      have ordered : RingBuffer.Initial (·.startsBy h.time) es.toList :=
        List.pairwise_of_forall_mem_list fun e he _ _ _ => started e he
      rw [Builder.place, RingBuffer.find?_eq, found, Builder.toList_openEvent ordered,
        List.takeWhile_eq_self_iff.2 started, List.dropWhile_eq_nil_iff.2 started, refused]
      rfl

end

/-- What a push does not close are the events from the first on that is not expired. -/
theorem Builder.eq_dropWhile_of_push {b : Builder} {h : Hit} (hr : h.routed = true)
    {rest : List Event} (hopened : b.opened = (b.push h).2 ++ rest) :
    rest = b.opened.dropWhile (·.expired h.time b.window) := by
  rw [snd_push hr] at hopened
  exact (List.append_cancel_left (List.takeWhile_append_dropWhile.trans hopened)).symm

/-- When no event starts after a hit, a push groups the hit with the events that it has not
run past. -/
theorem Builder.opened_push_eq_joinFirst {b : Builder} {h : Hit} (hr : h.routed = true)
    (started : ∀ e ∈ b.opened, e.startsBy h.time = true) :
    (b.push h).1.opened =
      joinFirst b.window h (b.opened.dropWhile (·.expired h.time b.window)) := by
  obtain ⟨rest, hopened, -, hpush⟩ := push_closes (b := b) hr
  have later := started
  rw [hopened, List.forall_mem_append] at later
  rw [hpush, toList_place_eq_joinFirst later.2, eq_dropWhile_of_push hr hopened]

/-! ## Events and the ticks of a clock -/

namespace Event

/-- The event starts at a tick of a clock that is not after `now`. -/
structure Begun (base : Timebase) (now : Nat) (e : Event) : Prop where
  base_eq : e.start.base = base
  ticks_le : e.start.ticks.toNat ≤ now

/-- No tick of a clock from `now` on is in the window of the event. -/
def Past (base : Timebase) (window : Float) (now : Nat) (e : Event) : Prop :=
  ∀ t : Timestamp, t.base = base → now ≤ t.ticks.toNat → e.inWindow t window = false

variable {base : Timebase} {window : Float} {now : Nat} {e : Event}

theorem Begun.mono (begun : e.Begun base now) {later : Nat} (h : now ≤ later) :
    e.Begun base later :=
  { begun with ticks_le := begun.ticks_le.trans h }

theorem Past.mono (past : e.Past base window now) {later : Nat} (h : now ≤ later) :
    e.Past base window later :=
  fun t ht hlater => past t ht (h.trans hlater)

theorem Begun.startsBy {t : Timestamp} (begun : e.Begun base t.ticks.toNat) (ht : t.base = base) :
    e.startsBy t = true := by
  rw [Event.startsBy, Timestamp.atMost, Timestamp.compare_of_base_eq (begun.base_eq.trans ht.symm)]
  exact Nat.isLE_compare.2 begun.ticks_le

/-- An event that a hit has run past is past for good. -/
theorem Begun.past (valid : base.Valid) (begun : e.Begun base now) {t : Timestamp}
    (ht : t.base = base) (expired : e.expired t window = true) :
    e.Past base window t.ticks.toNat := by
  intro u hu hle
  simp only [Event.expired, Bool.and_eq_true, Bool.not_eq_true'] at expired
  refine Bool.eq_false_iff.2 fun inside => ?_
  have near : t.nsSince e.start ≤ window :=
    Timestamp.nsSince_le_of_le (ht ▸ valid) (begun.base_eq ▸ valid) (ht.trans hu.symm) hle
      (of_decide_eq_true inside)
  have there : e.inWindow t window = true := decide_eq_true near
  rw [expired.1] at there
  cases there

theorem Past.refuses {h : Hit} (past : e.Past base window h.time.ticks.toNat)
    (hbase : h.time.base = base) : e.accepts h window = false := by
  rw [accepts, past h.time hbase le_rfl, Bool.and_false]

end Event

/-! ## Closed and open events -/

namespace Builder

/-- Of the events made up to a tick, the closed ones are past, and the open ones have
begun. -/
structure Settled (base : Timebase) (now : Nat) (closed : List Event) (b : Builder) : Prop where
  past : ∀ e ∈ closed, e.Past base b.window now
  begun : ∀ e ∈ b.opened, e.Begun base now

variable {base : Timebase} {now : Nat} {closed : List Event} {b : Builder}

/-- A push does to all events what the grouping does, and what it closes is past. -/
theorem Settled.push (valid : base.Valid) (settled : b.Settled base now closed) {h : Hit}
    (hr : h.routed = true) (hbase : h.time.base = base) (hnow : now ≤ h.time.ticks.toNat) :
    closed ++ (b.push h).2 ++ (b.push h).1.opened =
        joinFirst b.window h (closed ++ b.opened) ∧
      (b.push h).1.Settled base h.time.ticks.toNat (closed ++ (b.push h).2) := by
  have begun : ∀ e ∈ b.opened, e.Begun base h.time.ticks.toNat :=
    fun e he => (settled.begun e he).mono hnow
  obtain ⟨rest, hopened, expired, hpush⟩ := push_closes (b := b) hr
  have split := begun
  rw [hopened, List.forall_mem_append] at split
  have past : ∀ e ∈ closed ++ (b.push h).2, e.Past base b.window h.time.ticks.toNat :=
    List.forall_mem_append.2
      ⟨fun e he => (settled.past e he).mono hnow,
        fun e he => (split.1 e he).past valid hbase (expired e he)⟩
  constructor
  · have started : ∀ e ∈ rest.toList, e.startsBy h.time = true :=
      fun e he => (split.2 e he).startsBy hbase
    rw [hopened, ← List.append_assoc, joinFirst_append fun e he => (past e he).refuses hbase,
      hpush, toList_place_eq_joinFirst started]
  · refine ⟨by rwa [window_push], ?_⟩
    refine (forall_mem_push begun (fun _ he => he) (fun e he _ => ?_) ⟨hbase, le_rfl⟩).2
    exact ⟨he.base_eq, he.ticks_le⟩

theorem Settled.pushAll (valid : base.Valid) {hs : List Hit}
    (settled : b.Settled base now closed) (routed : ∀ h ∈ hs, h.routed = true)
    (clock : ∀ h ∈ hs, h.time.base = base) (future : ∀ h ∈ hs, now ≤ h.time.ticks.toNat)
    (ordered : hs.Pairwise (·.time.ticks.toNat ≤ ·.time.ticks.toNat)) :
    closed ++ (b.pushAll hs).2 ++ (b.pushAll hs).1.opened =
      hs.foldl (fun es h => joinFirst b.window h es) (closed ++ b.opened) := by
  induction hs generalizing b now closed with
  | nil => rw [Builder.pushAll, List.append_nil, List.foldl_nil]
  | cons h hs ih =>
      rw [List.forall_mem_cons] at routed clock future
      obtain ⟨hfirst, hrest⟩ := List.pairwise_cons.1 ordered
      obtain ⟨hevents, hsettled⟩ := settled.push valid routed.1 clock.1 future.1
      have rest := ih hsettled routed.2 clock.2 hfirst hrest
      rw [window_push, hevents] at rest
      rw [Builder.pushAll, ← List.append_assoc, List.foldl_cons]
      exact rest

/-- Hits of one clock in the order of their ticks make the same events in the same
order whether events are closed as hits run past them or only at the end. -/
theorem pushAll_grouped (fresh : b.opened = []) (valid : base.Valid) {hs : List Hit}
    (routed : ∀ h ∈ hs, h.routed = true) (clock : ∀ h ∈ hs, h.time.base = base)
    (ordered : hs.Pairwise (·.time.ticks.toNat ≤ ·.time.ticks.toNat)) :
    (b.pushAll hs).2 ++ (b.pushAll hs).1.flush.2 = grouped b.window hs := by
  have settled : b.Settled base 0 [] := ⟨by simp, by simp [fresh]⟩
  have run := settled.pushAll valid routed clock (fun _ _ => Nat.zero_le _) ordered
  rw [fresh] at run
  exact run

/-- A hit without values, at a tick of a Pixie-4 module. -/
def tickAt (source : SourceId) (ticks : UInt64) : Hit :=
  (Hit.blank source { base := .pixie4 }).setTicks ticks

/-- Two hits at one tick, two events open at a time, and a hit that closes the first of
them and joins the second. -/
def pileUp : List Hit :=
  [tickAt 0 100, tickAt 1 100, tickAt 0 103, tickAt 1 105, tickAt 2 106, tickAt 2 109,
    tickAt 0 300]

theorem pushAll_grouped_pileUp :
    let b := ofWindow 100.0
    let read := b.pushAll pileUp
    (b.opened = [] ∧ Timebase.pixie4.Valid ∧ (∀ h ∈ pileUp, h.routed = true) ∧
        (∀ h ∈ pileUp, h.time.base = .pixie4) ∧
        pileUp.Pairwise (·.time.ticks.toNat ≤ ·.time.ticks.toNat)) ∧
      (b.pushAll (pileUp.take 6)).2.length = 1 ∧
      (read.2 ++ read.1.flush.2).map (fun e => e.hits.map fun h => (h.source, h.time.ticks)) =
        [[(0, 100), (1, 100), (2, 106)], [(0, 103), (1, 105), (2, 109)], [(0, 300)]] := by
  have fresh : (ofWindow 100.0).opened = [] := rfl
  have valid : Timebase.pixie4.Valid := by decide
  have routed : ∀ h ∈ pileUp, h.routed = true := by decide
  have clock : ∀ h ∈ pileUp, h.time.base = .pixie4 := by decide
  have ordered : pileUp.Pairwise (·.time.ticks.toNat ≤ ·.time.ticks.toNat) := by decide
  intro b read
  refine ⟨⟨fresh, valid, routed, clock, ordered⟩, ?_, ?_⟩
  · decide +kernel
  · rw [pushAll_grouped fresh valid routed clock ordered]
    decide +kernel

end Builder

end ListMode.Coincidence
