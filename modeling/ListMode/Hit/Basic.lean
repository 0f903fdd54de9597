import ListMode.Hit.Model
import ListMode.Hit.Waveform

/-!
# Hits

A hit is one detection on one source channel: when it happened, the field
values its model declares and its waveform.  Changing a hit never changes its
layout: a value outside the declared fields is ignored (`Hit.setValue`), a
waveform is copied as far as there is room (`Hit.setTrace`).
-/

namespace ListMode

/-- The id of a source channel; a negative id means the hit is not routed. -/
abbrev SourceId := Int16

/-- One detection on one source channel. -/
structure Hit where
  /-- The source channel. -/
  source : SourceId
  /-- When the hit was triggered. -/
  time : Timestamp
  /-- The field values, in the model's order. -/
  values : List Digitized
  /-- The waveform. -/
  trace : Waveform
deriving DecidableEq, Repr

namespace Hit

/-- The zero hit of a model on a source channel. -/
def blank (source : SourceId) (m : HitModel) : Hit :=
  ⟨source, ⟨0, m.base⟩, m.blank, .blank m.traceLength⟩

instance : Inhabited Hit := ⟨blank (-1) {}⟩

/-- The hit at another tick count of the same clock. -/
def setTicks (h : Hit) (ticks : UInt64) : Hit := { h with time := { h.time with ticks } }

/-- The value of a field, a zero of no width when there is no such field. -/
def value (h : Hit) (i : Nat) : Digitized := h.values[i]?.getD default

/-- The hit with a field's sample replaced; other positions are ignored. -/
def setValue (h : Hit) (i : Nat) (raw : UInt16) : Hit :=
  { h with values := h.values.modify i (·.set raw) }

/-- The hit with its first waveform samples overwritten, as many as there is
room for. -/
def setTrace (h : Hit) (samples : List UInt16) : Hit :=
  { h with trace := h.trace.overwrite samples }

/-- The hit shifted in time. -/
def delay (h : Hit) (ns : Float) : Hit := { h with time := h.time.delay ns }

/-- Two hits are the same when source, moment, values and waveform agree; the
moment counts, not the clock it was read from. -/
def same (a b : Hit) : Bool :=
  a.source == b.source && a.time.simultaneous b.time && a.values == b.values &&
    a.trace == b.trace

/-- A hit is routed when its source id is not negative. -/
def routed (h : Hit) : Bool := 0 ≤ h.source

/-- The gate number of a hit's source channel. -/
def gate (h : Hit) : Nat := h.source.toNatClampNeg

/-- A hit is on a channel when its source is that channel. -/
theorem on_channel_iff (h : Hit) (channel : Nat) :
    (h.routed = true ∧ h.gate = channel) ↔ h.source.toInt = (channel : Int) := by
  have zero : (0 : SourceId).toInt = 0 := rfl
  simp only [routed, gate, decide_eq_true_eq, Int16.le_iff_toInt_le, Int16.toNatClampNeg, zero]
  omega

/-! ## Changing a hit keeps its layout -/

@[simp] theorem length_values_setValue (h : Hit) (i : Nat) (raw : UInt16) :
    (h.setValue i raw).values.length = h.values.length := by
  simp [setValue]

@[simp] theorem length_trace_setTrace (h : Hit) (samples : List UInt16) :
    (h.setTrace samples).trace.length = h.trace.length := rfl

end Hit

end ListMode
