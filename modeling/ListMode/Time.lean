/-!
# Ticks and timestamps

A digitizer counts time in whole ticks of its own clock.  A *timebase* says how
long one tick is, as a fraction of nanoseconds, so that a 75 MHz clock
(1000/75 ns) is exact.  A *timestamp* is a tick count bound to the timebase it
was counted in.

Two readings of a timestamp live side by side.  Its order is exact: over one
timebase the tick counts are compared, over two timebases the counts are cross
multiplied (`Timestamp.compare`).  Its place in nanoseconds is a binary64
number (`Timestamp.ns`), and that is the reading the coincidence window and the
delays work with.
-/

namespace ListMode

/-! ## Timebases -/

/-- The length of one clock tick, `multiplier / divider` nanoseconds. -/
structure Timebase where
  /-- Numerator of the tick length. -/
  multiplier : UInt32
  /-- Denominator of the tick length. -/
  divider : UInt32
deriving DecidableEq, Repr

namespace Timebase

/-- One tick per nanosecond. -/
instance : Inhabited Timebase := ⟨⟨1, 1⟩⟩

/-- The 75 MHz clock of a Pixie-4 module. -/
def pixie4 : Timebase := ⟨1000, 75⟩

/-- A timebase is valid when neither term is zero. -/
def Valid (b : Timebase) : Prop := b.multiplier ≠ 0 ∧ b.divider ≠ 0

instance (b : Timebase) : Decidable b.Valid := inferInstanceAs (Decidable (_ ∧ _))

/-- The timebase with the given terms, or nothing when a term is zero. -/
def ofTerms? (multiplier divider : UInt32) : Option Timebase :=
  if (⟨multiplier, divider⟩ : Timebase).Valid then some ⟨multiplier, divider⟩ else none

/-- The length of one tick in nanoseconds. -/
def tickNs (b : Timebase) : Float := b.multiplier.toFloat / b.divider.toFloat

/-- The whole number of ticks nearest to a duration: a half goes away from
zero, a duration out of range goes to the nearest end of the range, and no
number counts as zero ticks. -/
def ticksFor (b : Timebase) (ns : Float) : Int64 :=
  (ns * b.divider.toFloat / b.multiplier.toFloat).round.toInt64

end Timebase

/-- The words for a timebase with a zero term. -/
def invalidTimebaseMessage (multiplier divider : UInt32) : String :=
  s!"invalid timebase: {multiplier}/{divider} ns"

/-! ## Timestamps -/

/-- A tick count and the timebase it was counted in. -/
structure Timestamp where
  /-- Ticks since the start of the clock. -/
  ticks : UInt64
  /-- The clock. -/
  base : Timebase
deriving DecidableEq, Repr, Inhabited

namespace Timestamp

/-- The timestamp in nanoseconds. -/
def ns (t : Timestamp) : Float := t.ticks.toFloat * t.base.tickNs

/-- Nanoseconds from `earlier` to `t`, negative when `t` comes first. -/
def nsSince (t earlier : Timestamp) : Float := t.ns - earlier.ns

/-- The tick count scaled to the common denominator with another timebase. -/
def scaled (t : Timestamp) (other : Timebase) : Nat :=
  t.ticks.toNat * t.base.multiplier.toNat * other.divider.toNat

/-- The order of two timestamps in physical time, exact across timebases. -/
def compare (a b : Timestamp) : Ordering :=
  if a.base = b.base then Ord.compare a.ticks.toNat b.ticks.toNat
  else Ord.compare (a.scaled b.base) (b.scaled a.base)

instance : Ord Timestamp := ⟨compare⟩

/-- `a` is not after `b`. -/
def atMost (a b : Timestamp) : Bool := (a.compare b).isLE

/-- `a` and `b` are the same moment. -/
def simultaneous (a b : Timestamp) : Bool := a.compare b == .eq

/-- The sum of a tick count and an offset, held inside the counter's range. -/
def shiftTicks (ticks : UInt64) (offset : Int64) : UInt64 :=
  let moved : Int := ticks.toNat + offset.toInt
  if moved < 0 then 0
  else UInt64.ofNat (min moved.toNat (UInt64.size - 1))

/-- The timestamp shifted by a duration, rounded to whole ticks. -/
def delay (t : Timestamp) (ns : Float) : Timestamp :=
  { t with ticks := shiftTicks t.ticks (t.base.ticksFor ns) }

/-! ## Sorting by time -/

/-- Puts an element into a list kept latest first, in front of everything that
is not later than it. -/
def insertLatestFirst {α : Type} (time : α → Timestamp) (a : α) : List α → List α
  | [] => [a]
  | x :: xs =>
    if (time a).compare (time x) == .lt then x :: insertLatestFirst time a xs else a :: x :: xs

/-- The elements in time order; elements of one moment stay in the order they
came. -/
def sortOn {α : Type} (time : α → Timestamp) (as : List α) : List α :=
  (as.foldl (fun sorted a => insertLatestFirst time a sorted) []).reverse

theorem insertLatestFirst_perm {α : Type} (time : α → Timestamp) (a : α) (as : List α) :
    (insertLatestFirst time a as).Perm (a :: as) := by
  induction as with
  | nil => exact .refl _
  | cons x xs ih =>
    simp only [insertLatestFirst]
    split
    · exact (ih.cons x).trans (.swap a x xs)
    · exact .refl _

/-- Sorting loses nothing and adds nothing. -/
theorem sortOn_perm {α : Type} (time : α → Timestamp) (as : List α) :
    (sortOn time as).Perm as := by
  suffices h : ∀ sorted, (as.foldl (fun sorted a => insertLatestFirst time a sorted) sorted).Perm
      (as ++ sorted) by
    exact (List.reverse_perm _).trans (by simpa using h [])
  induction as with
  | nil => exact fun _ => .refl _
  | cons a as ih =>
    intro sorted
    refine (ih _).trans ?_
    exact ((insertLatestFirst_perm time a sorted).append_left as).trans List.perm_middle

end Timestamp

/-! ## Exactness at the clock's edges -/

example : (Timestamp.mk 75 .pixie4).compare ⟨1000, default⟩ = .eq := by decide
example : (Timestamp.mk 76 .pixie4).compare ⟨1000, default⟩ = .gt := by decide
example : Timestamp.shiftTicks 5 (-9) = 0 := by decide
example : Timebase.ofTerms? 0 75 = none := by decide

end ListMode
