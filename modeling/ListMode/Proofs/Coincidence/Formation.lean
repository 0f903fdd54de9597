import ListMode.Proofs.Coincidence.Conservation
import Mathlib.Data.List.Forall2

/-!
# How events are formed

Whatever is pushed on a builder and whenever it is flushed, its events are made of
the hits that were pushed, each used once, and each event is one that the rules of
coincidence allow (`Builder.callAll_legal`).  The hits may come in any time order.

Which hit of an event was pushed first cannot be read off the event, whose hits
stand in the order of their channels.  So the pushes are numbered, and each event is
kept with a *roll*, the numbered hits it is made of in the order they were pushed
(`Event.Formed`).  The rolls of all events together are the numbered pushes
(`Accounted`).  A push adds an entry to the end of one roll, or a roll of its own,
wherever the event stands (`Accounted.push`), and moving events from the open ones to
the returned ones changes nothing.
-/

namespace ListMode.Coincidence

/-! ## Events and their rolls -/

/-- Hits with the numbers of their pushes. -/
abbrev Roll := List (Hit × Nat)

namespace Event

theorem hit?_eq_some_iff {e : Event} (apart : e.Apart) {channel : Nat} {h : Hit} :
    e.hit? channel = some h ↔ h ∈ e.hits ∧ h.gate = channel := by
  constructor
  · intro found
    exact ⟨List.mem_of_find?_eq_some found, by simpa using List.find?_some found⟩
  · rintro ⟨hmem, rfl⟩
    obtain ⟨start, hits⟩ := e
    simp only [Apart, hit?] at apart hmem ⊢
    induction hits with
    | nil => cases hmem
    | cons x xs ih =>
        obtain ⟨hx, hxs⟩ := List.pairwise_cons.1 apart
        rcases List.mem_cons.1 hmem with rfl | hmem
        · exact List.find?_cons_of_pos (beq_self_eq_true _)
        · have hne : (x.gate == h.gate) = false := by
            have := hx h hmem
            simp only [beq_eq_false_iff_ne]
            omega
          rw [List.find?_cons, hne]
          exact ih hxs hmem

/-- An event formed of the hits of a roll. -/
structure Formed (window : Float) (e : Event) (roll : Roll) : Prop where
  apart : e.Apart
  members : e.hits.Perm (roll.map Prod.fst)
  /-- The roll is in the order of the pushes. -/
  inOrder : roll.Pairwise (·.2 < ·.2)
  /-- The event starts with the first hit of its roll, and every later hit is not
  before the start and in the window. -/
  opened : ∃ first later, roll = first :: later ∧ e.start = first.1.time ∧
    ∀ m ∈ later, e.startsBy m.1.time = true ∧ e.inWindow m.1.time window = true

theorem formed_opening (window : Float) (h : Hit) (n : Nat) :
    (opening h).Formed window [(h, n)] where
  apart := apart_opening h
  members := .refl _
  inOrder := List.pairwise_singleton _ _
  opened := ⟨(h, n), [], rfl, rfl, fun _ hm => nomatch hm⟩

theorem Formed.add {window : Float} {e : Event} {roll : Roll} (formed : e.Formed window roll)
    {h : Hit} (accepted : e.accepts h window = true) {n : Nat} (later : ∀ m ∈ roll, m.2 < n) :
    (e.add h).Formed window (roll ++ [(h, n)]) where
  apart := formed.apart.add (not_has_of_accepts accepted)
  members := by
    rw [List.map_append]
    exact (e.add_perm h).trans ((formed.members.cons h).trans
      (List.perm_append_singleton h _).symm)
  inOrder := by
    rw [List.pairwise_append]
    refine ⟨formed.inOrder, List.pairwise_singleton _ _, fun m hm d hd => ?_⟩
    rw [List.mem_singleton.1 hd]
    exact later m hm
  opened := by
    obtain ⟨first, rest, rfl, hstart, hrest⟩ := formed.opened
    simp only [accepts, Bool.and_eq_true] at accepted
    refine ⟨first, rest ++ [(h, n)], rfl, hstart, ?_⟩
    rw [List.forall_mem_append, List.forall_mem_singleton]
    exact ⟨hrest, accepted.1.2, accepted.2⟩

end Event

/-! ## Events and all pushes -/

/-- The routed hits of a list of pushes with their numbers. -/
def numbered (hs : List Hit) : Roll := hs.zipIdx.filter (·.1.routed)

theorem numbered_append_singleton (hs : List Hit) (h : Hit) :
    numbered (hs ++ [h]) = numbered hs ++ if h.routed then [(h, hs.length)] else [] := by
  rw [numbered, List.zipIdx_append, List.filter_append, Nat.zero_add]
  congr 1
  cases hr : h.routed with
  | false => simp [hr]
  | true => simp [hr]

theorem map_fst_numbered (hs : List Hit) : (numbered hs).map Prod.fst = hs.filter Hit.routed := by
  have hfilter : numbered hs = hs.zipIdx.filter (Hit.routed ∘ Prod.fst) := rfl
  rw [hfilter, ← List.filter_map, List.zipIdx_map_fst]

theorem lt_of_mem_numbered {hs : List Hit} {m : Hit × Nat} (hm : m ∈ numbered hs) :
    m.2 < hs.length :=
  List.snd_lt_of_mem_zipIdx (List.mem_of_mem_filter hm)

theorem forall₂_append_inv {α β : Type} {R : α → β → Prop} {bs : List β} : ∀ {as as' : List α},
    List.Forall₂ R (as ++ as') bs →
      ∃ cs cs', bs = cs ++ cs' ∧ List.Forall₂ R as cs ∧ List.Forall₂ R as' cs'
  | [], _, h => ⟨[], bs, rfl, .nil, h⟩
  | _ :: _, _, .cons ha h => by
      obtain ⟨cs, cs', rfl, has, has'⟩ := forall₂_append_inv h
      exact ⟨_ :: cs, cs', rfl, .cons ha has, has'⟩

/-- The events were formed of the routed ones among the pushes, each used once. -/
def Accounted (window : Float) (hs : List Hit) (events : List Event) : Prop :=
  ∃ rolls, List.Forall₂ (Event.Formed window) events rolls ∧ rolls.flatten.Perm (numbered hs)

namespace Accounted

variable {window : Float} {hs : List Hit} {events : List Event}

theorem skip (accounted : Accounted window hs events) {h : Hit} (hr : h.routed = false) :
    Accounted window (hs ++ [h]) events := by
  obtain ⟨rolls, formed, complete⟩ := accounted
  refine ⟨rolls, formed, ?_⟩
  simpa [numbered_append_singleton, hr] using complete

/-- A hit more in one of the events. -/
theorem join {past back : List Event} {e : Event}
    (accounted : Accounted window hs (past ++ e :: back)) {h : Hit} (hr : h.routed = true)
    (accepted : e.accepts h window = true) :
    Accounted window (hs ++ [h]) (past ++ e.add h :: back) := by
  obtain ⟨rolls, formed, complete⟩ := accounted
  obtain ⟨before, others, rfl, hbefore, hothers⟩ := forall₂_append_inv formed
  cases hothers with
  | @cons _ roll _ after hroll hafter =>
      have hnumbers : ∀ m ∈ roll, m.2 < hs.length := by
        intro m hm
        refine lt_of_mem_numbered (complete.mem_iff.1 ?_)
        exact List.mem_flatten.2 ⟨roll, List.mem_append_right _ List.mem_cons_self, hm⟩
      refine ⟨before ++ (roll ++ [(h, hs.length)]) :: after,
        List.rel_append hbefore (.cons (hroll.add accepted hnumbers) hafter), ?_⟩
      rw [numbered_append_singleton, if_pos hr]
      have hrolls : (before ++ (roll ++ [(h, hs.length)]) :: after).flatten =
          (before.flatten ++ roll) ++ (h, hs.length) :: after.flatten := by simp
      have hold : (before ++ roll :: after).flatten =
          (before.flatten ++ roll) ++ after.flatten := by simp
      rw [hrolls]
      rw [hold] at complete
      exact List.perm_middle.trans ((complete.cons _).trans
        (List.perm_append_singleton _ _).symm)

/-- A hit more in an event of its own. -/
theorem opening {past back : List Event} (accounted : Accounted window hs (past ++ back))
    {h : Hit} (hr : h.routed = true) :
    Accounted window (hs ++ [h]) (past ++ .opening h :: back) := by
  obtain ⟨rolls, formed, complete⟩ := accounted
  obtain ⟨before, after, rfl, hbefore, hafter⟩ := forall₂_append_inv formed
  refine ⟨before ++ [(h, hs.length)] :: after,
    List.rel_append hbefore (.cons (Event.formed_opening window h hs.length) hafter), ?_⟩
  rw [numbered_append_singleton, if_pos hr]
  have hrolls : (before ++ [(h, hs.length)] :: after).flatten =
      before.flatten ++ (h, hs.length) :: after.flatten := by simp
  rw [hrolls]
  rw [List.flatten_append] at complete
  exact List.perm_middle.trans ((complete.cons _).trans (List.perm_append_singleton _ _).symm)

/-- One push, with events returned before it. -/
theorem push {b : Builder} {returned : List Event} (h : Hit)
    (accounted : Accounted b.window hs (returned ++ b.opened)) :
    Accounted b.window (hs ++ [h]) (returned ++ (b.push h).2 ++ (b.push h).1.opened) := by
  cases hr : h.routed with
  | false =>
      rw [Builder.push_eq_self hr, List.append_nil]
      exact accounted.skip hr
  | true =>
      obtain ⟨rest, hopened, -, placed⟩ := Builder.push_placed (b := b) hr
      rw [hopened, ← List.append_assoc] at accounted
      generalize (b.push h).1.opened = after at placed
      cases placed with
      | joined front back e _ accepted =>
          rw [← List.append_assoc] at accounted ⊢
          exact accounted.join hr accepted
      | opened front back _ =>
          rw [← List.append_assoc] at accounted ⊢
          exact accounted.opening hr

theorem hitsOf_perm (accounted : Accounted window hs events) :
    (hitsOf events).Perm (hs.filter Hit.routed) := by
  obtain ⟨rolls, formed, complete⟩ := accounted
  rw [← map_fst_numbered]
  refine List.Perm.trans ?_ (complete.map Prod.fst)
  clear complete
  induction formed with
  | nil => exact .refl _
  | cons hformed _ ih =>
      rw [hitsOf_cons, List.flatten_cons, List.map_append]
      exact hformed.members.append ih

theorem exists_roll (accounted : Accounted window hs events) {e : Event} (he : e ∈ events) :
    ∃ roll, e.Formed window roll := by
  obtain ⟨rolls, formed, -⟩ := accounted
  induction formed with
  | nil => cases he
  | cons hformed _ ih =>
      rcases List.mem_cons.1 he with rfl | he
      · exact ⟨_, hformed⟩
      · exact ih he

end Accounted

/-! ## Calls -/

/-- A call of a builder. -/
inductive Call where
  | push (h : Hit)
  | flush

/-- The hits that calls push. -/
def pushed : List Call → List Hit
  | [] => []
  | .push h :: calls => h :: pushed calls
  | .flush :: calls => pushed calls

theorem pushed_append (calls later : List Call) :
    pushed (calls ++ later) = pushed calls ++ pushed later := by
  induction calls with
  | nil => rfl
  | cons c calls ih =>
      cases c with
      | push h => exact congrArg (h :: ·) ih
      | flush => exact ih

namespace Builder

/-- One call, and the events it returns. -/
def call (b : Builder) : Call → Builder × List Event
  | .push h => b.push h
  | .flush => b.flush

/-- Calls one after the other, and the events they return. -/
def callAll (b : Builder) : List Call → Builder × List Event
  | [] => (b, [])
  | c :: calls =>
    let (b, first) := b.call c
    let (b, rest) := b.callAll calls
    (b, first ++ rest)

theorem callAll_concat (b : Builder) (calls : List Call) (c : Call) :
    b.callAll (calls ++ [c]) =
      (((b.callAll calls).1.call c).1, (b.callAll calls).2 ++ ((b.callAll calls).1.call c).2) := by
  induction calls generalizing b with
  | nil => simp [callAll]
  | cons d calls ih => simp [callAll, ih]

theorem window_call (b : Builder) (c : Call) : (b.call c).1.window = b.window := by
  cases c with
  | push h => exact window_push b h
  | flush => rfl

theorem window_callAll (b : Builder) (calls : List Call) :
    (b.callAll calls).1.window = b.window := by
  induction calls generalizing b with
  | nil => rfl
  | cons c calls ih => exact (ih _).trans (window_call b c)

theorem accounted_callAll {calls : List Call} {b : Builder} {hs : List Hit}
    {returned : List Event} (accounted : Accounted b.window hs (returned ++ b.opened)) :
    Accounted b.window (hs ++ pushed calls)
      (returned ++ (b.callAll calls).2 ++ (b.callAll calls).1.opened) := by
  induction calls generalizing b hs returned with
  | nil => simpa [callAll, pushed] using accounted
  | cons c calls ih =>
      have hwindow := window_call b c
      have hrest : Accounted b.window (hs ++ pushed [c])
          (returned ++ (b.call c).2 ++ (b.call c).1.opened) := by
        cases c with
        | push h => exact accounted.push h
        | flush =>
            rw [call, opened_flush, List.append_nil, pushed, pushed, List.append_nil]
            exact accounted
      rw [← hwindow] at hrest ⊢
      have hpushed : hs ++ pushed (c :: calls) = hs ++ pushed [c] ++ pushed calls := by
        cases c with
        | push h => simp [pushed]
        | flush => simp [pushed]
      rw [hpushed, callAll, ← List.append_assoc]
      exact ih hrest

/-- After every sequence of calls the hits of the events, returned or open, are the
routed hits that were pushed.  Each event keeps its hits under their own channels, and
is formed of hits in the order they were pushed, those of all events together being
each push once. -/
theorem callAll_legal (window : Float) (calls : List Call) :
    let done := (ofWindow window).callAll calls
    let events := done.2 ++ done.1.opened
    (hitsOf events).Perm ((pushed calls).filter Hit.routed) ∧
      (∀ e ∈ events, e.hits ≠ [] ∧ e.Apart ∧ ∀ channel h,
        e.hit? channel = some h ↔ h ∈ e.hits ∧ h.source.toInt = (channel : Int)) ∧
      ∃ rolls : List Roll,
        List.Forall₂ (Event.Formed (ofWindow window).window) events rolls ∧
          rolls.flatten.Perm (numbered (pushed calls)) := by
  intro done events
  have accounted : Accounted (ofWindow window).window (pushed calls) events := by
    have start : Accounted (ofWindow window).window [] ([] ++ (ofWindow window).opened) :=
      ⟨[], .nil, .refl _⟩
    have run := @accounted_callAll calls _ _ _ start
    simpa using run
  refine ⟨accounted.hitsOf_perm, fun e he => ?_, accounted⟩
  obtain ⟨roll, formed⟩ := accounted.exists_roll he
  refine ⟨?_, formed.apart, fun channel h => ?_⟩
  · obtain ⟨first, later, rfl, -⟩ := formed.opened
    intro hnil
    have := formed.members
    simp [hnil] at this
  · rw [Event.hit?_eq_some_iff formed.apart]
    refine and_congr_right fun hmem => ?_
    have hr : h.routed = true := by
      have hin : h ∈ hitsOf events := List.mem_flatMap.2 ⟨e, he, hmem⟩
      exact (List.mem_filter.1 (accounted.hitsOf_perm.mem_iff.1 hin)).2
    exact ⟨fun hgate => (h.on_channel_iff channel).1 ⟨hr, hgate⟩,
      fun hsource => ((h.on_channel_iff channel).2 hsource).2⟩

end Builder

end ListMode.Coincidence
