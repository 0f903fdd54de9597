import ListMode.Proofs.Coincidence.Closing
import ListMode.Proofs.Coincidence.Formation
import ListMode.Proofs.Time.Order

/-!
# The order of the open events

A builder puts an event in by bisection and closes events at the front, and both are
right only while the open events stand in the order of their starts.

*Any order of hits.*  A hit opens its event behind the events that do not start after it,
and in front of the others, so the open events stay in order (`InStartOrder.opening`),
and so do those that are taken from the front (`Ordered.push`).

*Hits in order.*  When the hits come from one clock in the order of their ticks, no event
starts after the hit that is read, which opens its event at the end.  So the events that
were returned and the open ones are in order together (`Chronological.push`).

*The window.*  The first open event that a hit leaves open has the hit in its window, and
the events behind it start no earlier (`Chronological.inWindow_of_mem_push`).

`Builder.events_in_start_order` says this of every run of calls.
-/

namespace ListMode

namespace Timestamp

variable {a b c : Timestamp}

theorem atMost_trans (ha : a.base.Valid) (hb : b.base.Valid) (hc : c.base.Valid)
    (hab : a.atMost b = true) (hbc : b.atMost c = true) : a.atMost c = true := by
  rw [atMost_iff ha hb] at hab
  rw [atMost_iff hb hc] at hbc
  exact (atMost_iff ha hc).2 (hab.trans hbc)

theorem atMost_of_not_atMost (ha : a.base.Valid) (hb : b.base.Valid) (h : a.atMost b ≠ true) :
    b.atMost a = true := by
  rw [Ne, atMost_iff ha hb, not_le] at h
  exact (atMost_iff hb ha).2 h.le

theorem atMost_iff_ticks_le (same : a.base = b.base) :
    a.atMost b = true ↔ a.ticks.toNat ≤ b.ticks.toNat := by
  rw [atMost, compare_of_base_eq same, Nat.isLE_compare]

end Timestamp

namespace Coincidence

/-! ## Events in order -/

/-- Each event starts no later than those behind it. -/
def InStartOrder (es : List Event) : Prop := es.Pairwise fun d e => d.start.atMost e.start = true

section

variable {window : Float} {h : Hit} {es : List Event}

/-- A hit joins an event without a change of the starts. -/
theorem inStartOrder_join {front back : List Event} {e : Event} :
    InStartOrder (front ++ e.add h :: back) ↔ InStartOrder (front ++ e :: back) := by
  simp only [InStartOrder, List.pairwise_append, List.pairwise_cons, List.forall_mem_cons]
  rfl

theorem inStartOrder_modify (i : Nat) :
    InStartOrder (es.modify i (·.add h)) ↔ InStartOrder es := by
  by_cases hi : i < es.length
  · rw [List.modify_eq_take_cons_drop hi, inStartOrder_join, List.getElem_cons_drop,
      List.take_append_drop]
  · rw [List.modify_eq_self (Nat.le_of_not_lt hi)]

/-- The events that do not start after a time stand in front of the others. -/
theorem InStartOrder.initial (ordered : InStartOrder es) (clocks : ∀ e ∈ es, e.start.base.Valid)
    {t : Timestamp} (ht : t.base.Valid) : RingBuffer.Initial (·.startsBy t) es :=
  List.Pairwise.imp_of_mem (fun hd he hde het =>
    Timestamp.atMost_trans (clocks _ hd) (clocks _ he) ht hde het) ordered

/-- A hit opens its event between the events that do not start after it and the others. -/
theorem InStartOrder.opening (ordered : InStartOrder es)
    (clocks : ∀ e ∈ es, e.start.base.Valid) (ht : h.time.base.Valid) :
    InStartOrder (es.takeWhile (·.startsBy h.time) ++
      .opening h :: es.dropWhile (·.startsBy h.time)) := by
  induction es with
  | nil => exact List.pairwise_singleton _ _
  | cons e es ih =>
      rw [List.forall_mem_cons] at clocks
      obtain ⟨hbehind, hrest⟩ := List.pairwise_cons.1 ordered
      by_cases started : e.startsBy h.time = true
      · rw [List.takeWhile_cons, if_pos started, List.dropWhile_cons, if_pos started,
          List.cons_append]
        refine List.pairwise_cons.2 ⟨?_, ih hrest clocks.2⟩
        rw [List.forall_mem_append, List.forall_mem_cons]
        exact ⟨fun d hd => hbehind d ((List.takeWhile_sublist _).subset hd), started,
          fun d hd => hbehind d ((List.dropWhile_sublist _).subset hd)⟩
      · rw [List.takeWhile_cons, if_neg started, List.dropWhile_cons, if_neg started]
        have first : h.time.atMost e.start = true :=
          Timestamp.atMost_of_not_atMost clocks.1 ht started
        refine List.pairwise_cons.2 ⟨List.forall_mem_cons.2 ⟨first, fun d hd => ?_⟩, ordered⟩
        exact Timestamp.atMost_trans ht clocks.1 (clocks.2 d hd) first (hbehind d hd)

/-- A hit that is put into open events leaves them in order. -/
theorem InStartOrder.place {es : RingBuffer Event} (ordered : InStartOrder es.toList)
    (clocks : ∀ e ∈ es.toList, e.start.base.Valid) (ht : h.time.base.Valid) :
    InStartOrder (Builder.place window h es).toList := by
  cases found : es.toList.findIdx? (·.accepts h window) with
  | some i =>
      rw [Builder.toList_place found]
      exact (inStartOrder_modify i).2 ordered
  | none =>
      rw [Builder.place, RingBuffer.find?_eq, found,
        Builder.toList_openEvent (ordered.initial clocks ht)]
      exact ordered.opening clocks ht

/-- When no event starts after a hit, the hit joins one of them or opens one at the end. -/
theorem InStartOrder.joinFirst {front : List Event} (ordered : InStartOrder (front ++ es))
    (started : ∀ e ∈ front ++ es, e.startsBy h.time = true) :
    InStartOrder (front ++ joinFirst window h es) := by
  induction es generalizing front with
  | nil =>
      rw [List.append_nil] at ordered started
      refine List.pairwise_append.2 ⟨ordered, List.pairwise_singleton _ _, fun e he d hd => ?_⟩
      rw [List.mem_singleton.1 hd]
      exact started e he
  | cons e es ih =>
      rw [Coincidence.joinFirst]
      split
      · exact inStartOrder_join.2 ordered
      · rw [List.append_cons] at ordered started ⊢
        exact ih ordered started

end

namespace Builder

/-! ## Hits in any order -/

/-- The open events start on valid clocks, and stand in the order of their starts. -/
structure Ordered (b : Builder) : Prop where
  clocks : ∀ e ∈ b.opened, e.start.base.Valid
  inOrder : InStartOrder b.opened

theorem ordered_ofWindow (window : Float) : (ofWindow window).Ordered := ⟨nofun, .nil⟩

variable {b : Builder}

/-- A push closes events in order and leaves the open events in order. -/
theorem Ordered.push (ordered : b.Ordered) {h : Hit} (valid : h.time.base.Valid) :
    (b.push h).1.Ordered ∧ InStartOrder (b.push h).2 := by
  have clocks := (forall_mem_push (b := b) (h := h) ordered.clocks (fun _ he => he)
    (fun _ he _ => he) valid).2
  cases hr : h.routed with
  | false =>
      rw [push_eq_self hr]
      exact ⟨ordered, .nil⟩
  | true =>
      obtain ⟨rest, hopened, -, hpush⟩ := push_closes (b := b) hr
      have inOrder := ordered.inOrder
      have before := ordered.clocks
      rw [hopened] at inOrder before
      obtain ⟨hclosed, hrest, -⟩ := List.pairwise_append.1 inOrder
      refine ⟨⟨clocks, ?_⟩, hclosed⟩
      rw [hpush]
      exact InStartOrder.place hrest (List.forall_mem_append.1 before).2 valid

theorem Ordered.call (ordered : b.Ordered) {c : Call}
    (valid : ∀ h ∈ pushed [c], h.time.base.Valid) :
    (b.call c).1.Ordered ∧ InStartOrder (b.call c).2 := by
  cases c with
  | push h => exact ordered.push (valid h List.mem_cons_self)
  | flush => exact ⟨⟨nofun, .nil⟩, ordered.inOrder⟩

theorem Ordered.callAll {calls : List Call} (ordered : b.Ordered)
    (valid : ∀ h ∈ pushed calls, h.time.base.Valid) : (b.callAll calls).1.Ordered := by
  induction calls generalizing b with
  | nil => exact ordered
  | cons c calls ih =>
      rw [← List.singleton_append, pushed_append, List.forall_mem_append] at valid
      exact ih (ordered.call valid.1).1 valid.2

/-! ## Hits of one clock in order -/

/-- The events returned and open start at ticks of one clock, and in order. -/
structure Chronological (base : Timebase) (now : Nat) (returned : List Event) (b : Builder) :
    Prop where
  begun : ∀ e ∈ returned ++ b.opened, e.Begun base now
  inOrder : InStartOrder (returned ++ b.opened)

variable {base : Timebase} {now : Nat} {returned : List Event}

theorem Chronological.mono (chron : b.Chronological base now returned) {later : Nat}
    (h : now ≤ later) : b.Chronological base later returned :=
  { chron with begun := fun e he => (chron.begun e he).mono h }

theorem chronological_ofWindow (window : Float) (base : Timebase) :
    (ofWindow window).Chronological base 0 [] := ⟨nofun, .nil⟩

theorem Chronological.flush (chron : b.Chronological base now returned) :
    b.flush.1.Chronological base now (returned ++ b.flush.2) := by
  refine ⟨?_, ?_⟩
  · rw [opened_flush, List.append_nil]
    exact chron.begun
  · rw [opened_flush, List.append_nil]
    exact chron.inOrder

/-- A push of a hit that no event starts after leaves all events in order. -/
theorem Chronological.push (chron : b.Chronological base now returned) {h : Hit}
    (hbase : h.time.base = base) (hnow : now ≤ h.time.ticks.toNat) :
    (b.push h).1.Chronological base h.time.ticks.toNat (returned ++ (b.push h).2) := by
  have begun := (chron.mono hnow).begun
  rw [List.forall_mem_append] at begun
  have after := forall_mem_push (h := h) begun.2 (fun _ he => he)
    (fun _ he _ => ⟨he.base_eq, he.ticks_le⟩) ⟨hbase, le_rfl⟩
  refine ⟨List.forall_mem_append.2 ⟨List.forall_mem_append.2 ⟨begun.1, after.1⟩, after.2⟩, ?_⟩
  cases hr : h.routed with
  | false =>
      rw [push_eq_self hr, List.append_nil]
      exact chron.inOrder
  | true =>
      obtain ⟨rest, hopened, -, hpush⟩ := push_closes (b := b) hr
      have inOrder := chron.inOrder
      have started := begun
      rw [hopened, List.forall_mem_append] at started
      rw [hopened, ← List.append_assoc] at inOrder
      rw [hpush, toList_place_eq_joinFirst fun e he => (started.2.2 e he).startsBy hbase]
      refine inOrder.joinFirst fun e he => Event.Begun.startsBy ?_ hbase
      rw [List.append_assoc, ← hopened] at he
      exact (chron.begun e he).mono hnow

theorem Chronological.callAll {calls : List Call} (chron : b.Chronological base now returned)
    (clock : ∀ h ∈ pushed calls, h.time.base = base)
    (future : ∀ h ∈ pushed calls, now ≤ h.time.ticks.toNat)
    (inOrder : (pushed calls).Pairwise (·.time.ticks.toNat ≤ ·.time.ticks.toNat)) {limit : Nat}
    (hlimit : now ≤ limit) (below : ∀ h ∈ pushed calls, h.time.ticks.toNat ≤ limit) :
    (b.callAll calls).1.Chronological base limit (returned ++ (b.callAll calls).2) := by
  induction calls generalizing b now returned with
  | nil =>
      rw [Builder.callAll, List.append_nil]
      exact chron.mono hlimit
  | cons c calls ih =>
      rw [Builder.callAll, ← List.append_assoc]
      cases c with
      | push h =>
          rw [pushed, List.forall_mem_cons] at clock future below
          obtain ⟨hfirst, hrest⟩ := List.pairwise_cons.1 inOrder
          exact ih (chron.push clock.1 future.1) clock.2 hfirst hrest below.1 below.2
      | flush => exact ih chron.flush clock future inOrder hlimit below

/-! ## The window of the open events -/

theorem window_ofWindow_nonneg (window : Float) : 0.0 ≤ (ofWindow window).window := by
  rw [ofWindow]
  split
  · next h => exact Binary64.float_le_of_lt h
  · decide +kernel

/-- The first event that is not closed is not expired. -/
theorem not_expired_of_push {h : Hit} (hr : h.routed = true) {e : Event} {rest : List Event}
    (hopened : b.opened = (b.push h).2 ++ e :: rest) : e.expired h.time b.window = false := by
  have first := List.head?_dropWhile_not (·.expired h.time b.window) b.opened
  rw [← eq_dropWhile_of_push hr hopened] at first
  simpa using first

/-- The events that a push leaves open have the hit in their window. -/
theorem Chronological.inWindow_of_mem_push (chron : b.Chronological base now returned)
    (nonneg : 0.0 ≤ b.window) (valid : base.Valid) {h : Hit} (hr : h.routed = true)
    (hbase : h.time.base = base) (hnow : now ≤ h.time.ticks.toNat) :
    ∀ e ∈ (b.push h).1.opened, e.inWindow h.time b.window = true := by
  have begun := (chron.mono hnow).begun
  have inOrder := (List.pairwise_append.1 chron.inOrder).2.1
  obtain ⟨rest, hopened, -, placed⟩ := push_placed (b := b) hr
  rw [hopened, List.forall_mem_append, List.forall_mem_append] at begun
  rw [hopened] at inOrder
  have begun := begun.2.2
  have inOrder := (List.pairwise_append.1 inOrder).2.1
  have inside : ∀ e ∈ rest, e.inWindow h.time b.window = true := by
    cases rest with
    | nil => exact nofun
    | cons first rest =>
        have started : first.startsBy h.time = true :=
          (begun first List.mem_cons_self).startsBy hbase
        have near : first.inWindow h.time b.window = true := by
          have still := not_expired_of_push hr hopened
          rwa [Event.expired, started, Bool.and_true, Bool.not_eq_false'] at still
        refine List.forall_mem_cons.2 ⟨near, fun e he => decide_eq_true ?_⟩
        have hfirst := begun first List.mem_cons_self
        have he' := begun e (List.mem_cons_of_mem _ he)
        have same : first.start.base = e.start.base := hfirst.base_eq.trans he'.base_eq.symm
        have later := (Timestamp.atMost_iff_ticks_le same).1 ((List.pairwise_cons.1 inOrder).1 e he)
        exact Timestamp.nsSince_le_of_start_le (hbase ▸ valid) (hfirst.base_eq ▸ valid) same later
          (of_decide_eq_true near)
  refine placed.forall_mem inside (fun _ he => he) (fun _ he _ => he) (decide_eq_true ?_)
  exact (Timestamp.denotes_nsSince_self (hbase ▸ valid)).le_of_le
    (show Binary64.Denotes 0.0 0 from .zero) le_rfl nonneg

/-! ## Every run -/

/-- After every call the open events are in the order of their starts, and every call
returns events in that order.  When the hits are of one clock and in the order of their
ticks, so is all that was ever returned, and every event that a push leaves open has the
hit in its window. -/
theorem events_in_start_order (window : Float) (calls : List Call) (c : Call)
    (valid : ∀ h ∈ pushed (calls ++ [c]), h.time.base.Valid) :
    let last := ((ofWindow window).callAll calls).1.call c
    let run := (ofWindow window).callAll (calls ++ [c])
    InStartOrder run.1.opened ∧ InStartOrder last.2 ∧
      ∀ base, (∀ h ∈ pushed (calls ++ [c]), h.time.base = base) →
        (pushed (calls ++ [c])).Pairwise (·.time.ticks.toNat ≤ ·.time.ticks.toNat) →
          InStartOrder run.2 ∧
            ∀ h, c = .push h → h.routed = true → ∀ e ∈ run.1.opened,
              e.startsBy h.time = true ∧ e.inWindow h.time (ofWindow window).window = true := by
  intro last run
  have hrun : run = (last.1, ((ofWindow window).callAll calls).2 ++ last.2) :=
    callAll_concat (ofWindow window) calls c
  have split := valid
  rw [pushed_append, List.forall_mem_append] at split
  obtain ⟨hlast, hreturned⟩ := ((ordered_ofWindow window).callAll split.1).call split.2
  rw [hrun]
  refine ⟨hlast.inOrder, hreturned, fun base clock inOrder => ⟨?_, ?_⟩⟩
  · have chron := (chronological_ofWindow window base).callAll clock (fun _ _ => Nat.zero_le _)
      inOrder (Nat.zero_le _) fun h _ => h.time.ticks.toNat_lt.le
    rw [callAll_concat] at chron
    exact (List.pairwise_append.1 chron.inOrder).1
  · rintro h rfl hr e he
    rw [pushed_append, List.forall_mem_append] at clock
    rw [pushed_append] at inOrder
    obtain ⟨hcalls, -, hbelow⟩ := List.pairwise_append.1 inOrder
    have hbase : h.time.base = base := clock.2 h List.mem_cons_self
    have hvalid : base.Valid := hbase ▸ split.2 h List.mem_cons_self
    have chron := (chronological_ofWindow window base).callAll clock.1 (fun _ _ => Nat.zero_le _)
      hcalls (Nat.zero_le _) fun g hg => hbelow g hg h List.mem_cons_self
    have hwindow : ((ofWindow window).callAll calls).1.window = (ofWindow window).window :=
      window_callAll _ _
    have begun := (chron.push hbase le_rfl).begun e (List.mem_append_right _ he)
    refine ⟨begun.startsBy hbase, ?_⟩
    rw [← hwindow]
    exact chron.inWindow_of_mem_push (hwindow ▸ window_ofWindow_nonneg window) hvalid hr hbase
      le_rfl e he

/-- Calls with hits of one clock in the order of their ticks, two at one tick.  The hit at 600
runs past the two events in front of it. -/
def inStep : List Call :=
  [.push (tickAt 0 100), .push (tickAt 1 100), .push (tickAt 0 103), .flush,
    .push (tickAt 0 400), .push (tickAt 0 402), .push (tickAt 1 600)]

theorem events_in_start_order_inStep :
    let calls := inStep ++ [.push (tickAt 1 601)]
    let run := (ofWindow 100.0).callAll calls
    ((∀ h ∈ pushed calls, h.time.base.Valid) ∧ (∀ h ∈ pushed calls, h.time.base = .pixie4) ∧
        (pushed calls).Pairwise (·.time.ticks.toNat ≤ ·.time.ticks.toNat)) ∧
      run.2.map (·.start.ticks) = [100, 103, 400, 402] ∧ InStartOrder run.2 ∧
      run.1.opened.map (·.start.ticks) = [600, 601] ∧ InStartOrder run.1.opened ∧
      ∀ e ∈ run.1.opened,
        e.inWindow (tickAt 1 601).time (ofWindow 100.0).window = true := by
  intro calls run
  have valid : ∀ h ∈ pushed calls, h.time.base.Valid := by decide
  have clock : ∀ h ∈ pushed calls, h.time.base = .pixie4 := by decide
  have inOrder : (pushed calls).Pairwise (·.time.ticks.toNat ≤ ·.time.ticks.toNat) := by decide
  obtain ⟨hopen, -, hclock⟩ := events_in_start_order 100.0 inStep (.push (tickAt 1 601)) valid
  obtain ⟨hreturned, hinside⟩ := hclock .pixie4 clock inOrder
  refine ⟨⟨valid, clock, inOrder⟩, ?_, hreturned, ?_, hopen, ?_⟩
  · decide +kernel
  · decide +kernel
  · exact fun e he => (hinside (tickAt 1 601) rfl (by decide) e he).2

/-- A hit that comes late, on another clock, opens its event in front of the one that is
open. -/
example :
    let calls : List Call :=
      [.push (tickAt 0 100), .push ((Hit.blank 1 { base := default }).setTicks 400)]
    ((ofWindow 100.0).callAll calls).1.opened.map (·.start.ticks) = [400, 100] := by
  decide +kernel

end Builder

end Coincidence

end ListMode
