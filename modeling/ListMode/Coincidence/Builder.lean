import ListMode.Coincidence.Event
import ListMode.RingBuffer

/-!
# Building coincidence events

Hits arrive one after the other and are grouped into events.  The events that
can still grow are *open*; they stand in the order of their starts.  A hit
first closes the events at the front that it has run past, then joins the
first open event that accepts it, and otherwise opens an event of its own, at a
place found by bisection (`openEvent`).  As long as starts can be put in order,
that is behind the events that do not start after it (`toList_openEvent`).

Hits that come late are still grouped, since an event is closed only by a hit
that has run past it.
-/

namespace ListMode.Coincidence

/-- The grouping of a stream of hits, as far as it has been read. -/
structure Builder where
  /-- How far from an event's start a hit may be, in nanoseconds. -/
  window : Float
  /-- The open events, in the order of their starts. -/
  pending : RingBuffer Event

namespace Builder

/-- The builder with no open events; a window that is not above zero, and no
number, count as zero. -/
def ofWindow (window : Float) : Builder := ⟨if window > 0.0 then window else 0.0, {}⟩

instance : Inhabited Builder := ⟨ofWindow 0.0⟩

/-- Opens an event for a hit, behind the events that do not start after it. -/
def openEvent (h : Hit) (es : RingBuffer Event) : RingBuffer Event :=
  es.insert (es.search (·.startsBy h.time)) (.opening h)

/-- Puts a routed hit into the open events. -/
def place (window : Float) (h : Hit) (es : RingBuffer Event) : RingBuffer Event :=
  match es.find? (·.accepts h window) with
  | some i => es.modify i (·.add h)
  | none => openEvent h es

/-- Reads one hit.  Gives the builder after it and the events it closed; a hit
on no channel changes nothing. -/
def push (b : Builder) (h : Hit) : Builder × List Event :=
  if h.routed then
    match b with
    | ⟨window, pending⟩ =>
      let n := pending.countFront (·.expired h.time window)
      let closed := pending.front n
      (⟨window, place window h (pending.drop n)⟩, closed)
  else (b, [])

/-- Closes every open event. -/
def flush (b : Builder) : Builder × List Event :=
  ({ b with pending := b.pending.clear }, b.pending.toList)

/-- Reads hits one after the other and collects the events they close. -/
def pushAll (b : Builder) : List Hit → Builder × List Event
  | [] => (b, [])
  | h :: hs =>
    let (b, closed) := b.push h
    let (b, later) := b.pushAll hs
    (b, closed ++ later)

/-! ## Events as lists -/

/-- The open events, in their order. -/
def opened (b : Builder) : List Event := b.pending.toList

@[simp] theorem opened_flush (b : Builder) : b.flush.1.opened = [] := rfl

theorem snd_push {b : Builder} {h : Hit} (hr : h.routed = true) :
    (b.push h).2 = b.opened.takeWhile (·.expired h.time b.window) := by
  simp only [push, hr, if_true, RingBuffer.front_eq, RingBuffer.countFront_eq]
  exact (List.prefix_iff_eq_take.1 (List.takeWhile_prefix _)).symm

theorem opened_push {b : Builder} {h : Hit} (hr : h.routed = true) :
    (b.push h).1.opened =
      (place b.window h (b.pending.drop (b.push h).2.length)).toList := by
  rw [snd_push hr]
  simp only [push, hr, if_true, opened, RingBuffer.countFront_eq]

/-- A hit joins the first event that accepts it. -/
theorem toList_place {window : Float} {h : Hit} {es : RingBuffer Event} {i : Nat}
    (found : es.toList.findIdx? (·.accepts h window) = some i) :
    (place window h es).toList = es.toList.modify i (·.add h) := by
  rw [place, RingBuffer.find?_eq, found, RingBuffer.toList_modify]

/-- When the events that do not start after a hit stand in front, the hit's event
is put behind them. -/
theorem toList_openEvent {h : Hit} {es : RingBuffer Event}
    (ordered : RingBuffer.Initial (·.startsBy h.time) es.toList) :
    (openEvent h es).toList =
      es.toList.takeWhile (·.startsBy h.time) ++
        .opening h :: es.toList.dropWhile (·.startsBy h.time) := by
  rw [openEvent, RingBuffer.toList_insert, RingBuffer.search_eq ordered]
  have cut : ∀ front back : List Event, front ++ back = es.toList →
      es.toList.take front.length ++ .opening h :: es.toList.drop front.length =
        front ++ .opening h :: back := by
    rintro front back hcut
    simp [← hcut]
  exact cut _ _ List.takeWhile_append_dropWhile

end Builder

end ListMode.Coincidence
