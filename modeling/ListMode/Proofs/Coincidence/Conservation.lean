import ListMode.Coincidence.Builder
import ListMode.Proofs.Ascending

/-!
# Conservation of hits

Grouping loses no hit and repeats none.  `Builder.push_perm` says it of one hit:
the hits of the events it closed and of the events still open are those that
were open before, and the hit.  `Builder.pushAll_perm` says it of a run.  The
order is not looked at, since a hit may join any open event.  Nothing here
depends on what the window test answers.

Both start from what one push does to the open events as a list: it closes some at
the front, and puts the hit among the others (`Builder.push_placed`).  `Builder.Placed`
has a case for each of the two ways to do so.

The second fact kept by every push is that an event holds one hit for a channel
(`Event.Apart`), so the hit of an event on a channel can be found by counting
(`Event.countP_gate`).
-/

namespace ListMode.Coincidence

open scoped List

/-! ## One hit more in an event -/

namespace Event

theorem insertHit_eq (h : Hit) (hits : List Hit) :
    insertHit h hits = hits.orderedInsert (·.gate < ·.gate) h := by
  induction hits with
  | nil => rfl
  | cons x xs ih => rw [insertHit, List.orderedInsert_cons, ih]

theorem add_perm (e : Event) (h : Hit) : (e.add h).hits.Perm (h :: e.hits) := by
  rw [add, insertHit_eq]
  exact List.perm_orderedInsert _ h e.hits

/-- The hits of an event stand in strictly ascending channel order. -/
def Apart (e : Event) : Prop := e.hits.Pairwise fun a b => a.gate < b.gate

theorem apart_opening (h : Hit) : (opening h).Apart := List.pairwise_singleton _ h

theorem Apart.add {e : Event} (he : e.Apart) {h : Hit} (free : e.has h.gate = false) :
    (e.add h).Apart := by
  rw [Apart, Event.add, insertHit_eq]
  refine ascending_orderedInsert he fun x hx hgate => ?_
  have taken : e.has h.gate = true := List.any_eq_true.2 ⟨x, hx, by simp [hgate]⟩
  rw [free] at taken
  cases taken

theorem not_has_of_accepts {e : Event} {h : Hit} {window : Float}
    (ha : e.accepts h window = true) : e.has h.gate = false := by
  simp only [accepts, Bool.and_eq_true, Bool.not_eq_true'] at ha
  exact ha.1.1

/-- Of the hits of an event at most one is on a channel, so counting those on a
channel with a property finds it. -/
theorem countP_gate {e : Event} (he : e.Apart) (channel : Nat) (p : Hit → Bool) :
    e.hits.countP (fun h => h.gate == channel && p h) =
      ((e.hit? channel).any p).toNat := by
  obtain ⟨start, hits⟩ := e
  simp only [Apart] at he
  simp only [hit?]
  induction hits with
  | nil => simp
  | cons x xs ih =>
      obtain ⟨hx, hxs⟩ := List.pairwise_cons.1 he
      by_cases hc : x.gate = channel
      · have behind : xs.countP (fun h => h.gate == channel && p h) = 0 := by
          refine List.countP_eq_zero.2 fun y hy hp => ?_
          have := hx y hy
          simp only [Bool.and_eq_true, beq_iff_eq] at hp
          omega
        by_cases hp : p x <;> simp [behind, hc, hp]
      · rw [List.countP_cons, ih hxs]
        have hfalse : (x.gate == channel) = false := by simp [hc]
        rw [List.find?_cons, hfalse]
        rfl

end Event

/-! ## One hit more in the open events -/

/-- The hits of events, event by event. -/
def hitsOf (events : List Event) : List Hit := events.flatMap Event.hits

@[simp] theorem hitsOf_nil : hitsOf [] = [] := rfl

@[simp] theorem hitsOf_cons (e : Event) (es : List Event) : hitsOf (e :: es) = e.hits ++ hitsOf es :=
  rfl

@[simp] theorem hitsOf_append (es fs : List Event) : hitsOf (es ++ fs) = hitsOf es ++ hitsOf fs :=
  List.flatMap_append

/-- Hits on a channel are counted by events when each event has one of them. -/
theorem countP_hitsOf {es : List Event} (apart : ∀ e ∈ es, e.Apart) (channel : Nat)
    (p : Hit → Bool) :
    (hitsOf es).countP (fun h => h.gate == channel && p h) =
      es.countP fun e => (e.hit? channel).any p := by
  induction es with
  | nil => rfl
  | cons e es ih =>
      have one := Event.countP_gate (apart e List.mem_cons_self) channel p
      have rest := ih fun d hd => apart d (List.mem_cons_of_mem e hd)
      rw [hitsOf_cons, List.countP_append, List.countP_cons, one, rest, Nat.add_comm]
      cases (e.hit? channel).any p with
      | false => rfl
      | true => rfl

namespace Builder

/-- Where a hit is put among open events. -/
inductive Placed (window : Float) (h : Hit) : List Event → List Event → Prop where
  /-- The first event that accepts the hit takes it. -/
  | joined (front back : List Event) (e : Event) :
    (∀ d ∈ front, d.accepts h window = false) → e.accepts h window = true →
    Placed window h (front ++ e :: back) (front ++ e.add h :: back)
  /-- No event accepts the hit, which opens one. -/
  | opened (front back : List Event) :
    (∀ d ∈ front ++ back, d.accepts h window = false) →
    Placed window h (front ++ back) (front ++ .opening h :: back)

theorem placed_place (window : Float) (h : Hit) (es : RingBuffer Event) :
    Placed window h es.toList (place window h es).toList := by
  cases found : es.toList.findIdx? (·.accepts h window) with
  | none =>
      have refused := List.findIdx?_eq_none_iff.1 found
      rw [place, RingBuffer.find?_eq, found, openEvent, RingBuffer.toList_insert]
      generalize es.search _ = i at *
      have opened := @Placed.opened window h (es.toList.take i) (es.toList.drop i)
      rw [List.take_append_drop] at opened
      exact opened refused
  | some i =>
      obtain ⟨hi, accepted, before⟩ := List.findIdx?_eq_some_iff_getElem.1 found
      rw [toList_place found, List.modify_eq_take_cons_drop hi]
      have joined := @Placed.joined window h (es.toList.take i) (es.toList.drop (i + 1))
        es.toList[i]
      rw [List.getElem_cons_drop, List.take_append_drop] at joined
      refine joined (fun d hd => ?_) accepted
      obtain ⟨j, hj, rfl⟩ := List.mem_take_iff_getElem.1 hd
      exact Bool.eq_false_iff.2 (before j (by omega))

namespace Placed

variable {window : Float} {h : Hit} {es es' : List Event}

/-- Wherever a hit is put, it is there once and all others stay. -/
theorem hitsOf_perm (placed : Placed window h es es') : (hitsOf es').Perm (h :: hitsOf es) := by
  cases placed with
  | joined front back e _ _ =>
      simp only [hitsOf_append, hitsOf_cons]
      exact (((e.add_perm h).append_right _).append_left _).trans List.perm_middle
  | opened front back _ =>
      simp only [hitsOf_append, hitsOf_cons]
      exact List.perm_middle

/-- What holds of the events before, and is kept where a hit joins or opens one, holds
of the events after. -/
theorem forall_mem {p q : Event → Prop} (placed : Placed window h es es')
    (before : ∀ e ∈ es, p e) (stays : ∀ e, p e → q e)
    (joins : ∀ e, p e → e.accepts h window = true → q (e.add h)) (opens : q (.opening h)) :
    ∀ e ∈ es', q e := by
  cases placed with
  | joined front back e _ accepted =>
      rw [List.forall_mem_append, List.forall_mem_cons] at before ⊢
      obtain ⟨hfront, he, hback⟩ := before
      exact ⟨fun d hd => stays d (hfront d hd), joins e he accepted,
        fun d hd => stays d (hback d hd)⟩
  | opened front back _ =>
      rw [List.forall_mem_append] at before
      rw [List.forall_mem_append, List.forall_mem_cons]
      exact ⟨fun d hd => stays d (before.1 d hd), opens, fun d hd => stays d (before.2 d hd)⟩

end Placed

/-! ## Runs of hits -/

/-- Every open event holds one hit for a channel. -/
def Apart (b : Builder) : Prop := ∀ e ∈ b.opened, e.Apart

theorem push_eq_self {b : Builder} {h : Hit} (hr : h.routed = false) : b.push h = (b, []) := by
  simp [push, hr]

theorem window_push (b : Builder) (h : Hit) : (b.push h).1.window = b.window := by
  rw [push]
  split
  · rfl
  · rfl

/-- A push closes events at the front that the hit has run past, and puts the hit into
the rest. -/
theorem push_closes {b : Builder} {h : Hit} (hr : h.routed = true) :
    ∃ rest : RingBuffer Event, b.opened = (b.push h).2 ++ rest.toList ∧
      (∀ e ∈ (b.push h).2, e.expired h.time b.window = true) ∧
      (b.push h).1.opened = (place b.window h rest).toList := by
  have front : (b.push h).2 <+: b.opened := snd_push hr ▸ List.takeWhile_prefix _
  refine ⟨b.pending.drop (b.push h).2.length, ?_, fun e he => ?_, opened_push hr⟩
  · rw [RingBuffer.toList_drop]
    exact (List.prefix_iff_eq_append.1 front).symm
  · rw [snd_push hr] at he
    exact List.all_eq_true.1 List.all_takeWhile e he

/-- Where a push puts the hit among the events that it leaves open. -/
theorem push_placed {b : Builder} {h : Hit} (hr : h.routed = true) :
    ∃ rest, b.opened = (b.push h).2 ++ rest ∧
      (∀ e ∈ (b.push h).2, e.expired h.time b.window = true) ∧
      Placed b.window h rest (b.push h).1.opened := by
  obtain ⟨rest, hopened, expired, hpush⟩ := push_closes (b := b) hr
  exact ⟨rest.toList, hopened, expired, hpush ▸ placed_place b.window h rest⟩

/-- A push adds the hit, and moves others from open events to closed ones. -/
theorem push_perm {b : Builder} {h : Hit} (hr : h.routed = true) :
    (hitsOf ((b.push h).2 ++ (b.push h).1.opened)).Perm (h :: hitsOf b.opened) := by
  obtain ⟨rest, hopened, -, placed⟩ := push_placed (b := b) hr
  rw [hopened, hitsOf_append, hitsOf_append]
  exact (placed.hitsOf_perm.append_left _).trans List.perm_middle

/-- What holds of the open events, and is kept where the hit joins or opens one, holds
after a push of the events it closed and of those that are open. -/
theorem forall_mem_push {p q : Event → Prop} {b : Builder} {h : Hit}
    (before : ∀ e ∈ b.opened, p e) (stays : ∀ e, p e → q e)
    (joins : ∀ e, p e → e.accepts h b.window = true → q (e.add h)) (opens : q (.opening h)) :
    (∀ e ∈ (b.push h).2, q e) ∧ ∀ e ∈ (b.push h).1.opened, q e := by
  cases hr : h.routed with
  | false =>
      rw [push_eq_self hr]
      exact ⟨fun e he => absurd he List.not_mem_nil, fun e he => stays e (before e he)⟩
  | true =>
      obtain ⟨rest, hopened, -, placed⟩ := push_placed (b := b) hr
      rw [hopened, List.forall_mem_append] at before
      exact ⟨fun e he => stays e (before.1 e he), placed.forall_mem before.2 stays joins opens⟩

theorem push_apart {b : Builder} (hb : b.Apart) (h : Hit) :
    (b.push h).1.Apart ∧ ∀ e ∈ (b.push h).2, e.Apart :=
  (forall_mem_push hb (fun _ he => he)
    (fun _ he accepted => he.add (Event.not_has_of_accepts accepted))
    (Event.apart_opening h)).symm

theorem pushAll_cons (b : Builder) (h : Hit) (hs : List Hit) :
    b.pushAll (h :: hs) =
      (((b.push h).1.pushAll hs).1, (b.push h).2 ++ ((b.push h).1.pushAll hs).2) :=
  rfl

theorem pushAll_append (b : Builder) (gs hs : List Hit) :
    b.pushAll (gs ++ hs) =
      (((b.pushAll gs).1.pushAll hs).1, (b.pushAll gs).2 ++ ((b.pushAll gs).1.pushAll hs).2) := by
  induction gs generalizing b with
  | nil => rfl
  | cons g gs ih =>
      simp only [List.cons_append, pushAll]
      rw [ih]
      simp only [List.append_assoc]

/-- A run of hits ends with all that were open before and all that were routed. -/
theorem pushAll_perm (b : Builder) (hs : List Hit) :
    (hitsOf ((b.pushAll hs).2 ++ (b.pushAll hs).1.opened)).Perm
      (hs.filter Hit.routed ++ hitsOf b.opened) := by
  induction hs generalizing b with
  | nil => exact List.Perm.refl _
  | cons h hs ih =>
      have rest := ih (b.push h).1
      simp only [pushAll, List.append_assoc]
      rw [hitsOf_append]
      refine (rest.append_left _).trans ?_
      cases hr : h.routed with
      | false =>
          rw [push_eq_self hr, List.filter_cons_of_neg (by simp [hr])]
          exact List.Perm.refl _
      | true =>
          have one := push_perm (b := b) hr
          rw [hitsOf_append] at one
          rw [List.filter_cons_of_pos hr]
          -- The later hits stand in the way: they go to the front, and come back behind `h`.
          calc hitsOf (b.push h).2 ++ (hs.filter Hit.routed ++ hitsOf (b.push h).1.opened)
            _ ~ hs.filter Hit.routed ++ (hitsOf (b.push h).2 ++ hitsOf (b.push h).1.opened) :=
                List.perm_append_comm_assoc _ _ _
            _ ~ hs.filter Hit.routed ++ (h :: hitsOf b.opened) := one.append_left _
            _ ~ h :: hs.filter Hit.routed ++ hitsOf b.opened := List.perm_middle

theorem pushAll_apart {b : Builder} (hb : b.Apart) (hs : List Hit) :
    (b.pushAll hs).1.Apart ∧ ∀ e ∈ (b.pushAll hs).2, e.Apart := by
  induction hs generalizing b with
  | nil => exact ⟨hb, fun e he => nomatch he⟩
  | cons h hs ih =>
      obtain ⟨hopen, hclosed⟩ := push_apart hb h
      obtain ⟨hopen', hclosed'⟩ := ih hopen
      exact ⟨hopen', List.forall_mem_append.2 ⟨hclosed, hclosed'⟩⟩

end Builder

end ListMode.Coincidence
