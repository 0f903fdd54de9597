import ListMode.Record.Clock
import Mathlib.Algebra.Group.Nat.Defs

/-!
# Trigger times are recovered

The words of a trigger time are taken at three moments: the record is opened, the
channel triggers, the event's header is latched.  Between two of these moments a
counter may wrap, and only the lowest word belongs to the trigger itself.  As long
as the moments are close to each other the two corrections of `Clock.trigger` undo
every wrap, so the ticks put together are those of the trigger
(`Clock.ticks_recovered`).

The argument has one lemma for each correction.  Above the lowest word the record
and the event disagree by at most one wrap, so the event's highest word is the
record's or the next (`Clock.eventHigh_word`).  Given the words above the lowest,
the trigger lies in the event's stretch of 2^16 ticks or in the one before it, and
its lowest word tells which (`Clock.trigger_eq`).
-/

namespace ListMode.Clock

/-- The 16 bits of a tick count from a bit on, as a clock word holds them. -/
def word (bit ticks : Nat) : UInt16 := UInt16.ofNat (ticks / 2 ^ bit)

theorem toNat_word (bit ticks : Nat) : (word bit ticks).toNat = ticks / 2 ^ bit % 2 ^ 16 := rfl

theorem toNat_word_zero (ticks : Nat) : (word 0 ticks).toNat = ticks % 2 ^ 16 := by
  rw [toNat_word, Nat.pow_zero, Nat.div_one]

/-! ## Moments and their words -/

/-- A trigger as it was recorded, and the moments its clock words were taken at. -/
structure Capture where
  record : RecordHeader
  event : EventHeader
  block : Block
  /-- The tick at which the record was opened. -/
  opened : Nat
  /-- The tick of the trigger. -/
  triggered : Nat
  /-- The tick at which the event's header was latched. -/
  latched : Nat

namespace Capture

/-- The clock words are those of their moments.  A block has no high word, or has
that of the event. -/
structure Faithful (c : Capture) : Prop where
  recordHigh : c.record.timeHigh = word 32 c.opened
  recordMid : c.record.timeMid = word 16 c.opened
  eventMid : c.event.timeHigh = word 16 c.latched
  eventLow : c.event.timeLow = word 0 c.latched
  trigger : c.block.trigger = word 0 c.triggered
  blockHigh : c.block.timeHigh = none ∨
    c.latched < 2 ^ 48 ∧ c.block.timeHigh = some (word 32 c.latched)

/-- The moments are so close that no counter wraps twice between them. -/
structure Close (c : Capture) : Prop where
  opened_lt : c.opened < 2 ^ 48
  triggered_le : c.triggered ≤ c.latched
  latched_sub_lt : c.latched - c.triggered < 2 ^ 16
  opened_le : c.opened / 2 ^ 16 ≤ c.latched / 2 ^ 16
  latched_behind : c.latched / 2 ^ 16 - c.opened / 2 ^ 16 < 2 ^ 16

/-- The ticks put together from the words. -/
def ticks (c : Capture) : Nat := Clock.ticks c.record c.event c.block

end Capture

/-! ## The two corrections -/

/-- The highest word of an event, from the middle words of two moments that are less
than 2^32 ticks apart. -/
theorem eventHigh_word {opened latched : Nat} (hopened : opened < 2 ^ 48)
    (hle : opened / 2 ^ 16 ≤ latched / 2 ^ 16)
    (hlt : latched / 2 ^ 16 - opened / 2 ^ 16 < 2 ^ 16) :
    eventHigh (word 32 opened) (word 16 opened) (word 16 latched) = latched / 2 ^ 32 := by
  have hhigh : (word 32 opened).toNat = opened / 2 ^ 32 := by
    rw [toNat_word]
    omega
  rw [eventHigh, hhigh]
  split
  · next hwrapped =>
      rw [UInt16.lt_iff_toNat_lt, toNat_word, toNat_word] at hwrapped
      omega
  · next hsame =>
      rw [UInt16.lt_iff_toNat_lt, toNat_word, toNat_word] at hsame
      omega

/-- A trigger less than 2^16 ticks before a moment, from the words above the lowest
of that moment and the lowest words of both. -/
theorem trigger_eq {high triggered latched : Nat} (hhigh : high = latched / 2 ^ 32)
    (hle : triggered ≤ latched) (hlt : latched - triggered < 2 ^ 16) :
    trigger high (word 16 latched) (word 0 latched) (word 0 triggered) = triggered := by
  have hcoarse : high * UInt32.size + (word 16 latched).toNat * UInt16.size =
      latched / 2 ^ 16 * 2 ^ 16 := by
    rw [hhigh, toNat_word, UInt32.size, UInt16.size]
    omega
  simp only [trigger, hcoarse, gt_iff_lt, UInt16.lt_iff_toNat_lt, toNat_word_zero, UInt16.size]
  -- `omega` would unfold the sizes in it.
  clear hcoarse
  split
  · next hborrow => omega
  · next hsame => omega

/-! ## Recovery -/

theorem Capture.ticks_eq {c : Capture} (hwords : c.Faithful) (hclose : c.Close) :
    c.ticks = c.triggered := by
  rw [ticks, Clock.ticks, hwords.eventMid, hwords.eventLow, hwords.trigger]
  refine trigger_eq ?_ hclose.triggered_le hclose.latched_sub_lt
  rcases hwords.blockHigh with hnone | ⟨hlatched, hown⟩
  · rw [hnone, hwords.recordHigh, hwords.recordMid]
    exact eventHigh_word hclose.opened_lt hclose.opened_le hclose.latched_behind
  · simp only [hown, toNat_word]
    omega

/-- Every trigger time of a run is recovered, whether the block has a high word of
its own or not.  So the times never go down where those of the triggers do not. -/
theorem ticks_recovered {run : List Capture} (hwords : ∀ c ∈ run, c.Faithful)
    (hclose : ∀ c ∈ run, c.Close) :
    (∀ c ∈ run, c.ticks = c.triggered) ∧
      ((run.map Capture.triggered).Pairwise (· ≤ ·) →
        (run.map Capture.ticks).Pairwise (· ≤ ·)) := by
  have heach : ∀ c ∈ run, c.ticks = c.triggered := fun c hc =>
    c.ticks_eq (hwords c hc) (hclose c hc)
  refine ⟨heach, fun hordered => ?_⟩
  rwa [List.map_congr_left heach]

/-- A trigger recorded at three moments, with a high word in its block or without. -/
def Capture.ofTicks (layout : Layout) (opened triggered latched : Nat) : Capture where
  record :=
    { wordCount := 11, module := 0, layout, timeHigh := word 32 opened
      timeMid := word 16 opened, timeLow := word 0 opened }
  event := { pattern := 0x0101, timeHigh := word 16 latched, timeLow := word 0 latched }
  block :=
    { trigger := word 0 triggered
      timeHigh := if layout.hasTimeHigh then some (word 32 latched) else none }
  opened
  triggered
  latched

/-- Captures around a wrap of the middle word: before it, across it with a carry, and
across it with a carry and a borrow through a middle word that is zero. -/
def wrappingRun : List Capture :=
  [.ofTicks .compressed 0x5FFF00000 0x5FFFE0010 0x5FFFE0020,
    .ofTicks .full 0x5FFF00000 0x5FFFFFFF0 0x600000004,
    .ofTicks .compressed 0x5FFF00000 0x5FFFFFFF8 0x600000004,
    .ofTicks .shapes 0x5FFF00000 0x600000002 0x600000004]

theorem ticks_recovered_wrappingRun :
    (∀ c ∈ wrappingRun, c.Faithful) ∧ (∀ c ∈ wrappingRun, c.Close) ∧
      wrappingRun.map (fun c => (c.record.timeHigh, c.event.timeHigh, c.block.trigger)) =
        [(5, 0xFFFE, 0x10), (5, 0, 0xFFF0), (5, 0, 0xFFF8), (5, 0, 2)] ∧
      (∀ c ∈ wrappingRun, c.ticks = c.triggered) ∧
      (wrappingRun.map Capture.ticks).Pairwise (· ≤ ·) := by
  have hwords : ∀ c ∈ wrappingRun, c.Faithful := by
    simp only [wrappingRun, List.forall_mem_cons]
    refine ⟨⟨rfl, rfl, rfl, rfl, rfl, .inl rfl⟩, ⟨rfl, rfl, rfl, rfl, rfl, .inr ⟨by decide, rfl⟩⟩,
      ⟨rfl, rfl, rfl, rfl, rfl, .inl rfl⟩, ⟨rfl, rfl, rfl, rfl, rfl, .inl rfl⟩, ?_⟩
    exact fun c hc => nomatch hc
  have hclose : ∀ c ∈ wrappingRun, c.Close := by
    simp only [wrappingRun, List.forall_mem_cons]
    refine ⟨?_, ?_, ?_, ?_, fun c hc => nomatch hc⟩ <;> constructor <;> decide
  obtain ⟨heach, hordered⟩ := ticks_recovered hwords hclose
  exact ⟨hwords, hclose, rfl, heach, hordered (by decide)⟩

end ListMode.Clock
