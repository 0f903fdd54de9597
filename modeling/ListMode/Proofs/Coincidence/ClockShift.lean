import ListMode.Proofs.Coincidence.Closing
import ListMode.Proofs.Time.Precision

/-!
# Grouping and the start of the clock

The events that hits of one clock make should not depend on when the clock was started.
They do not as long as the window can tell the distances of the hits (`Builder.Tells`),
and then every push closes the same events and leaves the same events open, all of them
later by the same number of ticks (`Builder.grouping_shifted`).

A hit is looked at by an event in three ways.  Whether its channel is taken has nothing to
do with time, and whether it comes before the start is seen in the ticks.  Only the window
is compared with a distance in nanoseconds, and it tells the distance of two hits when the
places of the clock are not rounded, or when the window is further from that distance than
rounding moves it (`Builder.inWindow_shifted`).

A window that is a whole number of ticks stands at the distance of hits that are as many
ticks apart.  Such hits make one event or two by the way their places were rounded
(`Builder.edge_moved_by_shift`).
-/

namespace ListMode

/-! ## Later by a number of ticks -/

/-- The timestamp as a clock reads it that was started `k` ticks before. -/
def Timestamp.shifted (k : Nat) (t : Timestamp) : Timestamp :=
  { t with ticks := UInt64.ofNat (t.ticks.toNat + k) }

/-- The hit on a clock that was started `k` ticks before. -/
def Hit.shifted (k : Nat) (h : Hit) : Hit := { h with time := h.time.shifted k }

/-- The event on a clock that was started `k` ticks before. -/
def Coincidence.Event.shifted (k : Nat) (e : Coincidence.Event) : Coincidence.Event :=
  ⟨e.start.shifted k, e.hits.map (Hit.shifted k)⟩

namespace Timestamp

variable {s t : Timestamp} {k : Nat}

@[simp] theorem base_shifted : (t.shifted k).base = t.base := rfl

theorem toNat_ticks_shifted (room : t.ticks.toNat + k < 2 ^ 64) :
    (t.shifted k).ticks.toNat = t.ticks.toNat + k := by
  rw [shifted, UInt64.toNat_ofNat', Nat.mod_eq_of_lt room]

end Timestamp

namespace Coincidence

open Binary64 (Denotes)

namespace Event

variable {k : Nat} {e : Event} {h : Hit}

theorem has_shifted (channel : Nat) : (e.shifted k).has channel = e.has channel := by
  rw [has, has, shifted, List.any_map]
  rfl

theorem insertHit_shifted (hits : List Hit) :
    insertHit (h.shifted k) (hits.map (Hit.shifted k)) =
      (insertHit h hits).map (Hit.shifted k) := by
  induction hits with
  | nil => rfl
  | cons x xs ih =>
      have gates : (h.shifted k).gate < (x.shifted k).gate ↔ h.gate < x.gate := Iff.rfl
      simp only [List.map_cons, insertHit, gates, ih]
      split
      · rfl
      · rfl

theorem add_shifted : (e.shifted k).add (h.shifted k) = (e.add h).shifted k :=
  congrArg (mk (e.start.shifted k)) (insertHit_shifted e.hits)

/-- The event looks at the hit in the same way when both are shifted. -/
structure SeesShifted (window : Float) (k : Nat) (h : Hit) (e : Event) : Prop where
  startsBy : (e.shifted k).startsBy (h.shifted k).time = e.startsBy h.time
  inWindow : (e.shifted k).inWindow (h.shifted k).time window = e.inWindow h.time window

variable {window : Float}

theorem SeesShifted.accepts (sees : e.SeesShifted window k h) :
    (e.shifted k).accepts (h.shifted k) window = e.accepts h window := by
  have gate : (h.shifted k).gate = h.gate := rfl
  rw [Event.accepts, Event.accepts, gate, has_shifted, sees.startsBy, sees.inWindow]

theorem SeesShifted.expired (sees : e.SeesShifted window k h) :
    (e.shifted k).expired (h.shifted k).time window = e.expired h.time window := by
  rw [Event.expired, Event.expired, sees.startsBy, sees.inWindow]

end Event

/-! ## One hit -/

section

variable {α β : Type} {f : α → β} {p : β → Bool} {q : α → Bool} {as : List α}

theorem takeWhile_map_of_forall (h : ∀ a ∈ as, p (f a) = q a) :
    (as.map f).takeWhile p = (as.takeWhile q).map f := by
  induction as with
  | nil => rfl
  | cons a as ih =>
      rw [List.forall_mem_cons] at h
      rw [List.map_cons, List.takeWhile_cons, List.takeWhile_cons, h.1, ih h.2]
      split
      · rfl
      · rfl

theorem dropWhile_map_of_forall (h : ∀ a ∈ as, p (f a) = q a) :
    (as.map f).dropWhile p = (as.dropWhile q).map f := by
  induction as with
  | nil => rfl
  | cons a as ih =>
      rw [List.forall_mem_cons] at h
      rw [List.map_cons, List.dropWhile_cons, List.dropWhile_cons, h.1, ih h.2]
      split
      · rfl
      · rfl

end

section

variable {window : Float} {k : Nat} {h : Hit}

theorem joinFirst_shifted {es : List Event} (sees : ∀ e ∈ es, e.SeesShifted window k h) :
    joinFirst window (h.shifted k) (es.map (Event.shifted k)) =
      (joinFirst window h es).map (Event.shifted k) := by
  induction es with
  | nil => rfl
  | cons e es ih =>
      rw [List.forall_mem_cons] at sees
      rw [List.map_cons, joinFirst, joinFirst, sees.1.accepts, Event.add_shifted, ih sees.2]
      split
      · rfl
      · rfl

end

namespace Builder

/-- The open events of the second builder are those of the first on a clock that was
started `k` ticks before. -/
structure Shifted (k : Nat) (b b' : Builder) : Prop where
  window_eq : b'.window = b.window
  opened_eq : b'.opened = b.opened.map (Event.shifted k)

/-- A push closes and leaves open what it would without the shift, when the events see the
hit as they would without it. -/
theorem Shifted.push {k : Nat} {b b' : Builder} (shifted : Shifted k b b') {h : Hit}
    (hr : h.routed = true) (sees : ∀ e ∈ b.opened, e.SeesShifted b.window k h)
    (started : ∀ e ∈ b.opened, e.startsBy h.time = true) :
    Shifted k (b.push h).1 (b'.push (h.shifted k)).1 ∧
      (b'.push (h.shifted k)).2 = (b.push h).2.map (Event.shifted k) := by
  have hr' : (h.shifted k).routed = true := hr
  have started' : ∀ e ∈ b'.opened, e.startsBy (h.shifted k).time = true := by
    rw [shifted.opened_eq]
    exact List.forall_mem_map.2 fun e he => (sees e he).startsBy.trans (started e he)
  have expired : ∀ e ∈ b.opened,
      (e.shifted k).expired (h.shifted k).time b.window = e.expired h.time b.window :=
    fun e he => (sees e he).expired
  refine ⟨⟨?_, ?_⟩, ?_⟩
  · rw [window_push, window_push, shifted.window_eq]
  · rw [opened_push_eq_joinFirst hr started, opened_push_eq_joinFirst hr' started',
      shifted.window_eq, shifted.opened_eq, dropWhile_map_of_forall expired]
    exact joinFirst_shifted fun e he => sees e ((List.dropWhile_sublist _).subset he)
  · rw [snd_push hr, snd_push hr', shifted.window_eq, shifted.opened_eq,
      takeWhile_map_of_forall expired]

/-! ## Distances that the window tells -/

/-- The second timestamp is not before the first, and the window can tell their distance. -/
structure Told (base : Timebase) (limit : Nat) (w : ℚ) (s t : Timestamp) : Prop where
  later : s.ticks.toNat ≤ t.ticks.toNat
  edge : s.ticks.toNat < t.ticks.toNat →
    base.Exact limit ∨ base.OffEdge limit w (t.ticks.toNat - s.ticks.toNat)

variable {base : Timebase} {limit k : Nat} {w : ℚ}

/-- An event sees a hit as it does without the shift, when the window can tell the distance
of the hit from the start. -/
theorem Told.seesShifted (valid : base.Valid) (hlimit : limit ≤ 2 ^ 53) {window : Float}
    (hwindow : Denotes window w) {e : Event} {h : Hit} (told : Told base limit w e.start h.time)
    (hstart : e.start.base = base) (hbase : h.time.base = base)
    (room : h.time.ticks.toNat + k < limit) : e.SeesShifted window k h := by
  have hticks : (h.shifted k).time.ticks.toNat = h.time.ticks.toNat + k :=
    Timestamp.toNat_ticks_shifted (room.trans_le (hlimit.trans (by norm_num)))
  have hstarts : (e.shifted k).start.ticks.toNat = e.start.ticks.toNat + k :=
    Timestamp.toNat_ticks_shifted (by have := told.later; omega)
  have later : (e.shifted k).start.ticks.toNat ≤ (h.shifted k).time.ticks.toNat := by
    rw [hticks, hstarts]
    exact Nat.add_le_add_right told.later k
  constructor
  · have begun : e.Begun base h.time.ticks.toNat := ⟨hstart, told.later⟩
    have begun' : (e.shifted k).Begun base (h.shifted k).time.ticks.toNat := ⟨hstart, later⟩
    rw [begun.startsBy hbase, begun'.startsBy hbase]
  · have edge : e.start.ticks.toNat < h.time.ticks.toNat →
        h.time.base.Exact limit ∨
          h.time.base.OffEdge limit w (h.time.ticks.toNat - e.start.ticks.toNat) :=
      hbase ▸ told.edge
    have edge' : (e.shifted k).start.ticks.toNat < (h.shifted k).time.ticks.toNat →
        h.time.base.Exact limit ∨ h.time.base.OffEdge limit w
          ((h.shifted k).time.ticks.toNat - (e.shifted k).start.ticks.toNat) := by
      rw [hticks, hstarts, Nat.add_lt_add_iff_right, Nat.add_sub_add_right]
      exact edge
    have near := Timestamp.nsSince_le_iff (hbase ▸ valid) (hstart.trans hbase.symm) told.later
      (by omega) hlimit hwindow edge
    have near' := Timestamp.nsSince_le_iff (s := (e.shifted k).start) (t := (h.shifted k).time)
      (hbase ▸ valid) (hstart.trans hbase.symm) later (by omega) hlimit hwindow edge'
    have distance : (((h.shifted k).time.ticks.toNat : ℚ) - (e.shifted k).start.ticks.toNat) =
        h.time.ticks.toNat - e.start.ticks.toNat := by
      rw [hticks, hstarts]
      push_cast
      ring
    rw [distance] at near'
    exact decide_eq_decide.2 (near'.trans near.symm)

/-! ## Runs of hits -/

/-- Hits on no channel may be left out. -/
theorem pushAll_filter_routed (b : Builder) (hs : List Hit) :
    b.pushAll (hs.filter Hit.routed) = b.pushAll hs := by
  induction hs generalizing b with
  | nil => rfl
  | cons h hs ih =>
      cases hr : h.routed with
      | true => rw [List.filter_cons_of_pos hr, pushAll_cons, pushAll_cons, ih]
      | false =>
          rw [List.filter_cons_of_neg (by simp [hr]), ih, pushAll_cons, push_eq_self hr]
          rfl

/-- A run of routed hits closes and leaves open what it would without the shift. -/
theorem Shifted.pushAll (valid : base.Valid) (hlimit : limit ≤ 2 ^ 53) {b b' : Builder}
    (hwindow : Denotes b.window w) (shifted : Shifted k b b') {hs : List Hit}
    (routed : ∀ h ∈ hs, h.routed = true) (clock : ∀ h ∈ hs, h.time.base = base)
    (room : ∀ h ∈ hs, h.time.ticks.toNat + k < limit)
    (starts : ∀ e ∈ b.opened,
      e.start.base = base ∧ ∀ h ∈ hs, Told base limit w e.start h.time)
    (told : hs.Pairwise fun x y => Told base limit w x.time y.time) :
    Shifted k (b.pushAll hs).1 (b'.pushAll (hs.map (Hit.shifted k))).1 ∧
      (b'.pushAll (hs.map (Hit.shifted k))).2 = (b.pushAll hs).2.map (Event.shifted k) := by
  induction hs generalizing b b' with
  | nil => exact ⟨shifted, rfl⟩
  | cons h hs ih =>
      rw [List.forall_mem_cons] at routed clock room
      obtain ⟨hfirst, hrest⟩ := List.pairwise_cons.1 told
      have first : ∀ e ∈ b.opened, Told base limit w e.start h.time :=
        fun e he => (starts e he).2 h List.mem_cons_self
      have sees : ∀ e ∈ b.opened, e.SeesShifted b.window k h := fun e he =>
        (first e he).seesShifted valid hlimit hwindow (starts e he).1 clock.1 room.1
      have started : ∀ e ∈ b.opened, e.startsBy h.time = true := fun e he =>
        Event.Begun.startsBy ⟨(starts e he).1, (first e he).later⟩ clock.1
      have starts' : ∀ e ∈ (b.push h).1.opened,
          e.start.base = base ∧ ∀ g ∈ hs, Told base limit w e.start g.time :=
        (forall_mem_push starts
          (fun e he => ⟨he.1, fun g hg => he.2 g (List.mem_cons_of_mem h hg)⟩)
          (fun e he _ => ⟨he.1, fun g hg => he.2 g (List.mem_cons_of_mem h hg)⟩)
          ⟨clock.1, hfirst⟩).2
      obtain ⟨hshifted, hclosed⟩ := shifted.push routed.1 sees started
      rw [← window_push b h] at hwindow
      obtain ⟨hrun, hlater⟩ := ih hwindow hshifted routed.2 clock.2 room.2 starts' hrest
      refine ⟨hrun, ?_⟩
      rw [List.map_cons, pushAll_cons, pushAll_cons, hclosed, hlater, List.map_append]

/-! ## Every finite window -/

theorem denotes_ofWindow {window : Float} (finite : Denotes window w) :
    Denotes (ofWindow window).window (max w 0) := by
  have zero : Denotes 0.0 0 := .zero
  rw [ofWindow]
  split
  · next h =>
      rw [max_eq_left ((zero.lt_iff finite).1 h).le]
      exact finite
  · next h =>
      rw [max_eq_right (not_lt.1 fun hpos => h ((zero.lt_iff finite).2 hpos))]
      exact zero

/-- Hits of one clock in the order of their ticks make the same events in the same order
when the clock was started `k` ticks before, and every push closes the same, as long as the
places of the clock are not rounded, or the window is further from the distances of routed
hits than rounding moves them. -/
theorem grouping_shifted {window : Float} (finite : Denotes window w) (valid : base.Valid)
    {hs : List Hit} (clock : ∀ h ∈ hs, h.time.base = base)
    (ordered : hs.Pairwise (·.time.ticks.toNat ≤ ·.time.ticks.toNat))
    (room : ∀ h ∈ hs, h.time.ticks.toNat + k < limit) (hlimit : limit ≤ 2 ^ 53)
    (edge : base.Exact limit ∨ (hs.filter Hit.routed).Pairwise fun x y =>
      x.time.ticks.toNat < y.time.ticks.toNat →
        base.OffEdge limit (max w 0) (y.time.ticks.toNat - x.time.ticks.toNat)) :
    let read := (ofWindow window).pushAll hs
    let read' := (ofWindow window).pushAll (hs.map (Hit.shifted k))
    read'.2 = read.2.map (Event.shifted k) ∧
      read'.1.flush.2 = read.1.flush.2.map (Event.shifted k) := by
  intro read read'
  have hmem : ∀ h ∈ hs.filter Hit.routed, h ∈ hs ∧ h.routed = true :=
    fun h hh => List.mem_filter.1 hh
  have told : (hs.filter Hit.routed).Pairwise fun x y =>
      Told base limit (max w 0) x.time y.time := by
    rcases edge with exact | off
    · exact (ordered.filter Hit.routed).imp fun later => ⟨later, fun _ => .inl exact⟩
    · have later := ordered.filter Hit.routed
      exact later.imp₂ (fun _ _ later off => ⟨later, fun h => .inr (off h)⟩) off
  have start : Shifted k (ofWindow window) (ofWindow window) := ⟨rfl, rfl⟩
  have run := start.pushAll valid hlimit (denotes_ofWindow finite) (fun h hh => (hmem h hh).2)
    (fun h hh => clock h (hmem h hh).1) (fun h hh => room h (hmem h hh).1) nofun told
  have filtered : (hs.filter Hit.routed).map (Hit.shifted k) =
      (hs.map (Hit.shifted k)).filter Hit.routed := by
    rw [List.filter_map]
    rfl
  rw [filtered, pushAll_filter_routed, pushAll_filter_routed] at run
  exact ⟨run.2, run.1.opened_eq⟩

/-! ## Off the edge, and at it -/

/-- A tick of a Pixie-4 module is between 13 and 14 nanoseconds. -/
theorem pixie4_tick_bounds : 13 ≤ Timebase.pixie4.tick ∧ Timebase.pixie4.tick ≤ 14 := by
  have whole (n : Nat) (hn : n < 2 ^ 53) : (n : ℚ) = Binary64.nearest n :=
    (Binary64.nearest_natCast hn).symm
  have terms : (Timebase.pixie4.multiplier.toNat : ℚ) / Timebase.pixie4.divider.toNat = 1000 / 75 :=
    rfl
  rw [Timebase.tick, terms]
  constructor
  · calc (13 : ℚ) = Binary64.nearest (13 : ℕ) := whole 13 (by norm_num)
      _ ≤ Binary64.nearest (1000 / 75) := Binary64.nearest_mono (by norm_num)
  · calc Binary64.nearest (1000 / 75) ≤ Binary64.nearest (14 : ℕ) :=
          Binary64.nearest_mono (by norm_num)
      _ = 14 := (whole 14 (by norm_num)).symm

/-- A window of 100 ns is seven and a half ticks of a Pixie-4 module, which no two hits are
apart. -/
theorem offEdge_pixie4 {limit : Nat} (hlimit : limit ≤ 2 ^ 48) (d : Nat) :
    Timebase.pixie4.OffEdge limit 100 d := by
  obtain ⟨hlow, hhigh⟩ := pixie4_tick_bounds
  have hrounding : limit * Timebase.pixie4.tick / 2 ^ 51 < 2 := by
    have hspan : limit * Timebase.pixie4.tick ≤ 2 ^ 48 * 14 :=
      mul_le_mul (by exact_mod_cast hlimit) hhigh (by linarith) (by positivity)
    rw [div_lt_iff₀ (by positivity)]
    linarith
  refine hrounding.trans_le ?_
  obtain h | h := Nat.lt_or_ge d 8
  · have hd : (d : ℚ) ≤ 7 := by exact_mod_cast Nat.le_of_lt_succ h
    refine le_abs.2 (.inl ?_)
    nlinarith
  · have hd : (8 : ℚ) ≤ d := by exact_mod_cast h
    refine le_abs.2 (.inr ?_)
    nlinarith

/-- A float literal that is a word is the number that the word is. -/
theorem denotes_word {window : Float} {n : UInt32} (h : window = n.toFloat) :
    Denotes window n.toNat :=
  h ▸ Binary64.denotes_uint32 n

/-- Two hits on a clock that counts nanoseconds, ten of them apart. -/
def tenApart : List Hit :=
  [(Hit.blank 0 { base := default }).setTicks 100, (Hit.blank 1 { base := default }).setTicks 110]

/-- The clock of a Pixie-4 module with a window that is off the edge, and the clock that
counts nanoseconds with one that is at it. -/
theorem grouping_shifted_twoClocks :
    let pixie := (ofWindow 100.0).pushAll (pileUp.map (Hit.shifted 0x10000000000))
    let nano := (ofWindow 10.0).pushAll (tenApart.map (Hit.shifted 0x10000000000))
    ((Denotes 100.0 100 ∧ Timebase.pixie4.Valid ∧ (∀ h ∈ pileUp, h.time.base = .pixie4) ∧
        pileUp.Pairwise (·.time.ticks.toNat ≤ ·.time.ticks.toNat) ∧
        ∀ h ∈ pileUp, h.time.ticks.toNat + 0x10000000000 < 2 ^ 48) ∧
      (pixie.2 ++ pixie.1.flush.2).map (fun e => e.hits.map fun h => (h.source, h.time.ticks)) =
        [[(0, 0x10000000064), (1, 0x10000000064), (2, 0x1000000006A)],
          [(0, 0x10000000067), (1, 0x10000000069), (2, 0x1000000006D)],
          [(0, 0x1000000012C)]]) ∧
    ((Denotes 10.0 10 ∧ (default : Timebase).Valid ∧ (∀ h ∈ tenApart, h.time.base = default) ∧
        tenApart.Pairwise (·.time.ticks.toNat ≤ ·.time.ticks.toNat) ∧
        ∀ h ∈ tenApart, h.time.ticks.toNat + 0x10000000000 < 2 ^ 53) ∧
      (nano.2 ++ nano.1.flush.2).map (fun e => e.hits.map fun h => (h.source, h.time.ticks)) =
        [[(0, 0x10000000064), (1, 0x1000000006E)]]) := by
  intro pixie nano
  constructor
  · have finite : Denotes 100.0 100 := denotes_word (n := 100) (by decide +kernel)
    have valid : Timebase.pixie4.Valid := by decide
    have clock : ∀ h ∈ pileUp, h.time.base = .pixie4 := by decide
    have ordered : pileUp.Pairwise (·.time.ticks.toNat ≤ ·.time.ticks.toNat) := by decide
    have room : ∀ h ∈ pileUp, h.time.ticks.toNat + 0x10000000000 < 2 ^ 48 := by decide
    have edge : (pileUp.filter Hit.routed).Pairwise fun x y =>
        x.time.ticks.toNat < y.time.ticks.toNat → Timebase.pixie4.OffEdge (2 ^ 48) (max 100 0)
          (y.time.ticks.toNat - x.time.ticks.toNat) := by
      have positive : max (100 : ℚ) 0 = 100 := max_eq_left (by norm_num)
      exact List.pairwise_of_forall fun _ _ _ => positive ▸ offEdge_pixie4 le_rfl _
    obtain ⟨hclosed, hflushed⟩ :=
      grouping_shifted finite valid clock ordered room (by norm_num) (.inr edge)
    refine ⟨⟨finite, valid, clock, ordered, room⟩, ?_⟩
    rw [hclosed, hflushed]
    decide +kernel
  · have finite : Denotes 10.0 10 := denotes_word (n := 10) (by decide +kernel)
    have valid : (default : Timebase).Valid := by decide
    have clock : ∀ h ∈ tenApart, h.time.base = default := by decide
    have ordered : tenApart.Pairwise (·.time.ticks.toNat ≤ ·.time.ticks.toNat) := by decide
    have room : ∀ h ∈ tenApart, h.time.ticks.toNat + 0x10000000000 < 2 ^ 53 := by decide
    obtain ⟨hclosed, hflushed⟩ := grouping_shifted finite valid clock ordered room le_rfl
      (.inl (Timebase.exact_of_whole (by decide)))
    refine ⟨⟨finite, valid, clock, ordered, room⟩, ?_⟩
    rw [hclosed, hflushed]
    decide +kernel

/-- Two hits that are exactly one window apart. -/
def oneWindowApart : List Hit := [tickAt 0 0, tickAt 1 3]

/-- Three ticks of a Pixie-4 module are 40 ns.  Hits at the ticks 0 and 3 make one event in a
window of 40 ns, and hits at the ticks 4 and 7 make two. -/
theorem edge_moved_by_shift :
    let read := (ofWindow 40.0).pushAll oneWindowApart
    let read' := (ofWindow 40.0).pushAll (oneWindowApart.map (Hit.shifted 4))
    (Denotes 40.0 40 ∧ Timebase.pixie4.Valid ∧ (∀ h ∈ oneWindowApart, h.time.base = .pixie4) ∧
        oneWindowApart.Pairwise (·.time.ticks.toNat ≤ ·.time.ticks.toNat) ∧
        ∀ h ∈ oneWindowApart, h.time.ticks.toNat + 4 < 2 ^ 48) ∧
      (3 : ℚ) * Timebase.pixie4.multiplier.toNat / Timebase.pixie4.divider.toNat = 40 ∧
      (read.2 ++ read.1.flush.2).length = 1 ∧ (read'.2 ++ read'.1.flush.2).length = 2 := by
  have finite : Denotes 40.0 40 := denotes_word (n := 40) (by decide +kernel)
  have terms : (3 : ℚ) * Timebase.pixie4.multiplier.toNat / Timebase.pixie4.divider.toNat =
      3 * 1000 / 75 := rfl
  refine ⟨⟨finite, by decide, by decide, by decide, by decide⟩, ?_, ?_, ?_⟩
  · rw [terms]
    norm_num
  · decide +kernel
  · decide +kernel

end Builder

end Coincidence

end ListMode
