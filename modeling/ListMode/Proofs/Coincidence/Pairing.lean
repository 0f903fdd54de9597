import ListMode.Proofs.Coincidence.Conservation

/-!
# Pairs of hits

Two hits that are in the window of each other, with no other hit near them, should
make one event.  Whether they do depends on how the hits are read: an event only
takes hits that are not before the hit that opened it, and it is closed by the first
hit that has run past it.

`Builder.pair_formed` says when the pair makes one event: the earlier hit is read
first, and what is read between the two is earlier than both.  The event that the
first hit opens waits for the second (`Builder.Awaits`), because no other hit joins it
and none closes it.  `Builder.pair_split` says that a pair of which the later hit is
read first never makes one event, whatever else is read: each of the two is only in
events that start with it (`Event.Splits`).
-/

namespace ListMode

theorem Timestamp.atMost_self (t : Timestamp) : t.atMost t = true := by
  simp [atMost, compare]

namespace Coincidence

/-! ## Times that are near -/

/-- A time is in the window of an event that starts at `start`, and not before it. -/
def follows (window : Float) (start t : Timestamp) : Bool :=
  start.atMost t && t.nsSince start <= window

/-- A time that is in the window of neither of two hits, and they not in its. -/
structure ClearOf (window : Float) (x y : Hit) (t : Timestamp) : Prop where
  before_first : follows window t x.time = false
  before_second : follows window t y.time = false
  after_first : follows window x.time t = false
  after_second : follows window y.time t = false

namespace Event

theorem accepts_eq (e : Event) (h : Hit) (window : Float) :
    e.accepts h window = (!e.has h.gate && follows window e.start h.time) :=
  Bool.and_assoc _ _ _

theorem refuses {e : Event} {h : Hit} {window : Float}
    (apart : follows window e.start h.time = false) : e.accepts h window = false := by
  rw [accepts_eq, apart, Bool.and_false]

theorem follows_of_accepts {e : Event} {h : Hit} {window : Float}
    (accepted : e.accepts h window = true) : follows window e.start h.time = true := by
  rw [accepts_eq, Bool.and_eq_true] at accepted
  exact accepted.2

theorem mem_hits_add {e : Event} {h x : Hit} : x ∈ (e.add h).hits ↔ x = h ∨ x ∈ e.hits := by
  rw [(e.add_perm h).mem_iff, List.mem_cons]

/-- An event starts at one of some times, and each of two hits is only in events that
start with it. -/
structure Splits (starts : Timestamp → Prop) (x y : Hit) (e : Event) : Prop where
  start : starts e.start
  first : x ∈ e.hits → e.start = x.time
  second : y ∈ e.hits → e.start = y.time

end Event

namespace Builder

/-! ## One push -/

section

variable {b : Builder} {h : Hit} {e : Event}

theorem expired_of_mem_push (he : e ∈ (b.push h).2) : e.expired h.time b.window = true := by
  cases hr : h.routed with
  | false =>
      rw [push_eq_self hr] at he
      cases he
  | true =>
      obtain ⟨rest, -, expired, -⟩ := push_placed (b := b) hr
      exact expired e he

/-- An event that refuses a hit is there after it is pushed, closed or open. -/
theorem mem_push_of_refuses (he : e ∈ b.opened) (refuses : e.accepts h b.window = false) :
    e ∈ (b.push h).2 ∨ e ∈ (b.push h).1.opened := by
  cases hr : h.routed with
  | false =>
      rw [push_eq_self hr]
      exact .inr he
  | true =>
      obtain ⟨rest, hopened, -, placed⟩ := push_placed (b := b) hr
      rw [hopened, List.mem_append] at he
      refine he.imp_right fun he => ?_
      generalize (b.push h).1.opened = after at placed
      cases placed with
      | joined front back d _ accepted =>
          have hne : e ≠ d := by
            rintro rfl
            rw [refuses] at accepted
            cases accepted
          simp only [List.mem_append, List.mem_cons] at he ⊢
          exact he.imp_right fun he => .inr (he.resolve_left hne)
      | opened front back _ =>
          simp only [List.mem_append, List.mem_cons] at he ⊢
          exact he.imp_right .inr

/-- A hit that every open event refuses opens one. -/
theorem opening_mem_push (hr : h.routed = true)
    (refused : ∀ d ∈ b.opened, d.accepts h b.window = false) :
    .opening h ∈ (b.push h).1.opened := by
  obtain ⟨rest, hopened, -, placed⟩ := push_placed (b := b) hr
  rw [hopened, List.forall_mem_append] at refused
  generalize (b.push h).1.opened = after at placed
  cases placed with
  | joined front back d _ accepted =>
      rw [refused.2 d (by simp)] at accepted
      cases accepted
  | opened front back _ => simp

/-- A hit that one open event accepts joins it. -/
theorem add_mem_push (hr : h.routed = true) (he : e ∈ b.opened)
    (accepts : e.accepts h b.window = true)
    (only : ∀ d ∈ b.opened, d.accepts h b.window = true → d = e) :
    e.add h ∈ (b.push h).1.opened := by
  obtain ⟨rest, hopened, -, placed⟩ := push_placed (b := b) hr
  have stays : e ∉ (b.push h).2 := by
    intro closed
    have inside : e.inWindow h.time b.window = true := by
      rw [Event.accepts, Bool.and_eq_true] at accepts
      exact accepts.2
    have expired := expired_of_mem_push closed
    rw [Event.expired, inside, Bool.not_true, Bool.false_and] at expired
    cases expired
  rw [hopened] at he only
  rw [List.forall_mem_append] at only
  have hrest := (List.mem_append.1 he).resolve_left stays
  generalize (b.push h).1.opened = after at placed
  cases placed with
  | joined front back d _ accepted =>
      obtain rfl := only.2 d (by simp) accepted
      simp
  | opened front back refused =>
      rw [refused e hrest] at accepts
      cases accepts

end

/-! ## Runs of pushes -/

/-- What every push keeps of the builder and the events closed so far, a run keeps. -/
theorem pushAll_keeps (kept : Builder → List Event → Prop) {hs : List Hit}
    (step : ∀ h ∈ hs, ∀ b past, kept b past → kept (b.push h).1 (past ++ (b.push h).2))
    {b : Builder} (past : List Event) (start : kept b past) :
    kept (b.pushAll hs).1 (past ++ (b.pushAll hs).2) := by
  induction hs generalizing b past with
  | nil => simpa [pushAll] using start
  | cons h hs ih =>
      rw [List.forall_mem_cons] at step
      rw [pushAll, ← List.append_assoc]
      exact ih step.2 _ (step.1 b past start)

/-- An event that no hit joins is there after all hits, closed or open. -/
theorem mem_pushAll_of_refuses {b : Builder} {hs : List Hit} {e : Event} (he : e ∈ b.opened)
    (refuses : ∀ h ∈ hs, e.accepts h b.window = false) :
    e ∈ (b.pushAll hs).2 ++ (b.pushAll hs).1.opened := by
  refine (pushAll_keeps (fun d past => d.window = b.window ∧ e ∈ past ++ d.opened)
    (fun h hh d past => ?_) [] ⟨rfl, he⟩).2
  rintro ⟨hwindow, hmem⟩
  refine ⟨(window_push d h).trans hwindow, ?_⟩
  rw [List.append_assoc, List.mem_append, List.mem_append]
  exact (List.mem_append.1 hmem).imp_right fun hmem =>
    mem_push_of_refuses hmem (hwindow ▸ refuses h hh)

/-! ## A pair read in order -/

section

variable {window : Float} {x y : Hit}

/-- Every open event starts apart from two hits. -/
structure Clear (window : Float) (x y : Hit) (b : Builder) : Prop where
  window_eq : b.window = window
  apart : ∀ e ∈ b.opened, ClearOf window x y e.start

/-- The event that the first of two hits opened waits for the second, and every other
open event starts apart from both. -/
structure Awaits (window : Float) (x y : Hit) (b : Builder) : Prop where
  window_eq : b.window = window
  waiting : .opening x ∈ b.opened
  others : ∀ e ∈ b.opened, e = .opening x ∨ ClearOf window x y e.start

theorem Clear.push {b : Builder} (hb : b.Clear window x y) {z : Hit}
    (hz : ClearOf window x y z.time) : (b.push z).1.Clear window x y where
  window_eq := (window_push b z).trans hb.window_eq
  apart := (forall_mem_push hb.apart (fun _ he => he) (fun _ he _ => he) hz).2

/-- The first hit of the pair opens an event. -/
theorem Clear.push_first {b : Builder} (hb : b.Clear window x y) (hr : x.routed = true) :
    (b.push x).1.Awaits window x y := by
  have refuses : ∀ d : Event, ClearOf window x y d.start → d.accepts x b.window = false :=
    fun d hd => Event.refuses (hb.window_eq ▸ hd.before_first)
  refine ⟨(window_push b x).trans hb.window_eq, ?_, ?_⟩
  · exact opening_mem_push hr fun d hd => refuses d (hb.apart d hd)
  · refine (forall_mem_push hb.apart (fun _ he => .inr he) (fun d hd accepted => ?_) (.inl rfl)).2
    rw [refuses d hd] at accepted
    cases accepted

/-- A hit earlier than the pair, and apart from it, leaves it waiting. -/
theorem Awaits.push {b : Builder} (hb : b.Awaits window x y) {z : Hit}
    (hz : ClearOf window x y z.time) (earlier : x.time.atMost z.time = false) :
    (b.push z).1.Awaits window x y := by
  have refuses : (Event.opening x).accepts z b.window = false :=
    Event.refuses (hb.window_eq ▸ hz.after_first)
  refine ⟨(window_push b z).trans hb.window_eq, ?_, ?_⟩
  · refine (mem_push_of_refuses hb.waiting refuses).resolve_left fun closed => ?_
    have expired := expired_of_mem_push closed
    rw [Event.expired, Event.startsBy, Event.opening, earlier, Bool.and_false] at expired
    cases expired
  · refine (forall_mem_push hb.others (fun _ he => he) (fun d hd accepted => ?_) (.inr hz)).2
    rcases hd with rfl | clear
    · rw [refuses] at accepted
      cases accepted
    · exact .inr clear

/-- The second hit of the pair joins the event that waits for it. -/
theorem Awaits.push_second {b : Builder} (hb : b.Awaits window x y) (hr : y.routed = true)
    (channels : x.gate ≠ y.gate) (near : follows window x.time y.time = true) :
    (Event.opening x).add y ∈ (b.push y).1.opened := by
  have accepts : (Event.opening x).accepts y b.window = true := by
    have free : (Event.opening x).has y.gate = false := by simp [Event.has, Event.opening, channels]
    rw [Event.accepts_eq, free, hb.window_eq]
    exact near
  refine add_mem_push hr hb.waiting accepts fun d hd accepted => ?_
  refine (hb.others d hd).resolve_right fun clear => ?_
  rw [hb.window_eq, Event.refuses clear.before_second] at accepted
  cases accepted

/-- Two hits that are near each other and apart from all others make one event, when
the earlier is read first and all that is read between them is earlier still. -/
theorem pair_formed {b : Builder} (fresh : b.opened = []) {before between after : List Hit}
    (routed : x.routed = true ∧ y.routed = true) (channels : x.gate ≠ y.gate)
    (near : follows b.window x.time y.time = true)
    (apart : ∀ z ∈ before ++ between ++ after, ClearOf b.window x y z.time)
    (earlier : ∀ z ∈ between, x.time.atMost z.time = false) :
    let read := b.pushAll (before ++ x :: between ++ y :: after)
    (Event.opening x).add y ∈ read.2 ++ read.1.opened := by
  rw [List.forall_mem_append, List.forall_mem_append] at apart
  obtain ⟨⟨hbefore, hbetween⟩, hafter⟩ := apart
  have clear : (b.pushAll before).1.Clear b.window x y :=
    pushAll_keeps (fun d _ => d.Clear b.window x y) (fun z hz d _ hd => hd.push (hbefore z hz)) []
      ⟨rfl, by simp [fresh]⟩
  have waiting : (((b.pushAll before).1.push x).1.pushAll between).1.Awaits b.window x y :=
    pushAll_keeps (fun d _ => d.Awaits b.window x y)
      (fun z hz d _ hd => hd.push (hbetween z hz) (earlier z hz)) [] (clear.push_first routed.1)
  have joined := waiting.push_second routed.2 channels near
  have refuses : ∀ z ∈ after, ((Event.opening x).add y).accepts z
      (((((b.pushAll before).1.push x).1.pushAll between).1.push y).1.window) = false := by
    intro z hz
    rw [window_push, waiting.window_eq]
    exact Event.refuses (hafter z hz).after_first
  have there := mem_pushAll_of_refuses joined refuses
  intro read
  simp only [read, pushAll_append, pushAll, List.append_assoc]
  simp only [List.mem_append] at there ⊢
  tauto

/-! ## A pair read against its order -/

/-- If a hit is one of two and joins an event, the event starts with it. -/
def JoinsOwn (window : Float) (starts : Timestamp → Prop) (x y z : Hit) : Prop :=
  ∀ t, starts t → follows window t z.time = true → (z = x → t = x.time) ∧ (z = y → t = y.time)

/-- Every event, closed or open, starts at one of some times and splits two hits. -/
structure SplitBy (window : Float) (starts : Timestamp → Prop) (x y : Hit) (b : Builder)
    (past : List Event) : Prop where
  window_eq : b.window = window
  splits : ∀ e ∈ past ++ b.opened, e.Splits starts x y

theorem SplitBy.push {starts starts' : Timestamp → Prop} {b : Builder} {past : List Event}
    (split : SplitBy window starts x y b past) (weaker : ∀ t, starts t → starts' t) {z : Hit}
    (hz : starts' z.time) (own : JoinsOwn window starts x y z) :
    SplitBy window starts' x y (b.push z).1 (past ++ (b.push z).2) := by
  obtain ⟨hpast, hopened⟩ := List.forall_mem_append.1 split.splits
  have stays : ∀ e : Event, e.Splits starts x y → e.Splits starts' x y := fun e he =>
    { he with start := weaker _ he.start }
  refine ⟨(window_push b z).trans split.window_eq, ?_⟩
  rw [List.append_assoc, List.forall_mem_append, List.forall_mem_append]
  refine ⟨fun e he => stays e (hpast e he), forall_mem_push hopened stays ?_ ?_⟩
  · intro d hd accepted
    have near := Event.follows_of_accepts accepted
    rw [split.window_eq] at near
    obtain ⟨first, second⟩ := own d.start hd.start near
    refine ⟨weaker _ hd.start, fun hx => ?_, fun hy => ?_⟩
    · exact (Event.mem_hits_add.1 hx).elim (fun heq => first heq.symm) hd.first
    · exact (Event.mem_hits_add.1 hy).elim (fun heq => second heq.symm) hd.second
  · refine ⟨hz, fun hx => ?_, fun hy => ?_⟩
    · rw [List.mem_singleton.1 hx]
      rfl
    · rw [List.mem_singleton.1 hy]
      rfl

/-- The time of one of two hits, or a time apart from both. -/
def mayStart (window : Float) (x y : Hit) (t : Timestamp) : Prop :=
  ClearOf window x y t ∨ t = x.time ∨ t = y.time

theorem joinsOwn_of_clear {z : Hit} (hz : ClearOf window x y z.time) :
    JoinsOwn window (mayStart window x y) x y z := by
  rintro t (clear | rfl | rfl) near
  · constructor
    · rintro rfl
      rw [clear.before_first] at near
      cases near
    · rintro rfl
      rw [clear.before_second] at near
      cases near
  · rw [hz.after_first] at near
    cases near
  · rw [hz.after_second] at near
    cases near

/-- The earlier of two hits joins no event that the later has opened. -/
theorem joinsOwn_earlier (later : y.time.atMost x.time = false) :
    JoinsOwn window (mayStart window x y) x y x := by
  rintro t (clear | rfl | rfl) near
  · rw [clear.before_first] at near
    cases near
  · exact ⟨fun _ => rfl, congrArg Hit.time⟩
  · rw [follows, later, Bool.false_and] at near
    cases near

/-- Two hits that are apart from all others never make one event when the later is
read first, and whatever is read between them. -/
theorem pair_split {b : Builder} (fresh : b.opened = []) {before between after : List Hit}
    (apart : ∀ z ∈ before ++ between ++ after, ClearOf b.window x y z.time)
    (later : y.time.atMost x.time = false) :
    let read := b.pushAll (before ++ y :: between ++ x :: after)
    ∀ e ∈ read.2 ++ read.1.opened, ¬ (x ∈ e.hits ∧ y ∈ e.hits) := by
  rw [List.forall_mem_append, List.forall_mem_append] at apart
  obtain ⟨⟨hbefore, hbetween⟩, hafter⟩ := apart
  have first : SplitBy b.window (ClearOf b.window x y) x y (b.pushAll before).1
      ([] ++ (b.pushAll before).2) :=
    pushAll_keeps (SplitBy b.window (ClearOf b.window x y) x y)
      (fun z hz d past hd => hd.push (fun _ ht => ht) (hbefore z hz) fun t ht =>
        joinsOwn_of_clear (hbefore z hz) t (.inl ht))
      [] ⟨rfl, by simp [fresh]⟩
  -- The later hit joins none of these, so it opens an event.
  have second : SplitBy b.window (mayStart b.window x y) x y ((b.pushAll before).1.push y).1
      ([] ++ (b.pushAll before).2 ++ ((b.pushAll before).1.push y).2) := by
    refine first.push (fun _ ht => .inl ht) (.inr (.inr rfl)) fun t ht near => ?_
    rw [ht.before_second] at near
    cases near
  have own : ∀ z ∈ between ++ x :: after, mayStart b.window x y z.time ∧
      JoinsOwn b.window (mayStart b.window x y) x y z := by
    rw [List.forall_mem_append, List.forall_mem_cons]
    refine ⟨fun z hz => ?_, ⟨.inr (.inl rfl), joinsOwn_earlier later⟩, fun z hz => ?_⟩
    · exact ⟨.inl (hbetween z hz), joinsOwn_of_clear (hbetween z hz)⟩
    · exact ⟨.inl (hafter z hz), joinsOwn_of_clear (hafter z hz)⟩
  have rest := pushAll_keeps (SplitBy b.window (mayStart b.window x y) x y)
    (fun z hz d past hd => hd.push (fun _ ht => ht) (own z hz).1 (own z hz).2) _ second
  intro read e he
  rintro ⟨hx, hy⟩
  have splits : e.Splits (mayStart b.window x y) x y := by
    refine rest.splits e ?_
    simp only [read, pushAll_append, pushAll, List.append_assoc, List.nil_append] at he ⊢
    exact he
  have same : x.time = y.time := (splits.first hx).symm.trans (splits.second hy)
  rw [same, Timestamp.atMost_self] at later
  cases later

end

end Builder

end Coincidence

end ListMode
