import ListMode.Gates
import ListMode.Hit.Basic

/-!
# Coincidence events

A coincidence event is a group of hits taken to be simultaneous, at most one
for each source channel.  It starts at the time of the hit that opened it, and
later hits are measured against that start.
-/

namespace ListMode.Coincidence

/-- Hits taken to be simultaneous. -/
structure Event where
  /-- The time of the hit that opened the event. -/
  start : Timestamp
  /-- The hits, in ascending channel order. -/
  hits : List Hit
deriving DecidableEq, Repr

namespace Event

/-- The event that a hit opens. -/
def opening (h : Hit) : Event := ⟨h.time, [h]⟩

/-- The hit on a channel. -/
def hit? (e : Event) (channel : Nat) : Option Hit := e.hits.find? (·.gate == channel)

/-- A channel took part. -/
def has (e : Event) (channel : Nat) : Bool := e.hits.any (·.gate == channel)

/-- Puts a hit in front of the hits on higher channels. -/
def insertHit (h : Hit) : List Hit → List Hit
  | [] => [h]
  | x :: xs => if h.gate < x.gate then h :: x :: xs else x :: insertHit h xs

/-- The event with another hit. -/
def add (e : Event) (h : Hit) : Event := { e with hits := insertHit h e.hits }

/-- A time is no further from the event's start than the window. -/
def inWindow (e : Event) (t : Timestamp) (window : Float) : Bool := t.nsSince e.start <= window

/-- A time is not before the event's start. -/
def startsBy (e : Event) (t : Timestamp) : Bool := e.start.atMost t

/-- A hit may join the event: its channel is not taken, and its time is in the
window and not before the start. -/
def accepts (e : Event) (h : Hit) (window : Float) : Bool :=
  !e.has h.gate && e.startsBy h.time && e.inWindow h.time window

/-- No hit at the given time or later can join the event. -/
def expired (e : Event) (t : Timestamp) (window : Float) : Bool :=
  !e.inWindow t window && e.startsBy t

/-- Every channel of the first gates took part and none of the second. -/
def passes (e : Event) (coincidence anticoincidence : Gates) : Bool :=
  coincidence.allPresent e.has && anticoincidence.nonePresent e.has

end Event

end ListMode.Coincidence
