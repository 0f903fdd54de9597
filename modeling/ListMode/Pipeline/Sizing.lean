/-!
# Sizing a pipeline

How deep the queues between the stages of a pipeline are, and how large a raw
spill is.  A depth can be capped by a memory budget, either given in bytes or as
a fraction of what the machine has free; both queues and the decoded form of
their spills share it.
-/

namespace ListMode

/-- The sizes of a pipeline. -/
structure Sizing where
  /-- The depth of each queue. -/
  queueDepth : Nat := 4
  /-- The fraction of the free memory to use. -/
  memoryFraction : Float := 0.5
  /-- A memory budget in bytes, which takes the place of the fraction. -/
  memoryBudget : Option Nat := none
  /-- The size of a raw spill in words. -/
  spillWords : Nat := 8 * 8192

/-- Why a size cannot be used. -/
inductive SizingFault where
  /-- A queue has to hold something. -/
  | queueDepth
  /-- A fraction has to be above zero and not above one. -/
  | memoryFraction
  /-- A spill has to hold something. -/
  | spillWords
  /-- No memory is free. -/
  | noMemory
deriving DecidableEq, Repr

/-- The words for a sizing fault. -/
def SizingFault.message : SizingFault → String
  | .queueDepth => "invalid configuration: queue_depth must be at least 1"
  | .memoryFraction => "invalid configuration: memory_fraction must be in (0.0, 1.0]"
  | .spillWords => "invalid configuration: spill_words must be at least 1"
  | .noMemory => "invalid configuration: available system memory reported as 0"

/-- Where a memory budget comes from. -/
inductive MemoryBudget where
  /-- A number of bytes. -/
  | bytes (n : Nat)
  /-- A fraction of what the machine has free. -/
  | ofMachine (fraction : Float)

namespace Sizing

/-! ## Setting sizes -/

/-- The sizes with another depth, at least one. -/
def withQueueDepth (s : Sizing) (depth : Nat) : Sizing := { s with queueDepth := max depth 1 }

/-- The sizes with another spill size, at least one word. -/
def withSpillWords (s : Sizing) (words : Nat) : Sizing := { s with spillWords := max words 1 }

/-- The sizes with another depth, which has to be at least one. -/
def withQueueDepth? (s : Sizing) (depth : Nat) : Except SizingFault Sizing :=
  if depth = 0 then .error .queueDepth else .ok { s with queueDepth := depth }

/-- The sizes with another spill size, which has to be at least one word. -/
def withSpillWords? (s : Sizing) (words : Nat) : Except SizingFault Sizing :=
  if words = 0 then .error .spillWords else .ok { s with spillWords := words }

/-- A fraction of memory can be used. -/
def usableFraction (fraction : Float) : Bool := 0.0 < fraction && fraction <= 1.0

/-- The sizes with another fraction of memory, which has to be usable. -/
def withMemoryFraction? (s : Sizing) (fraction : Float) : Except SizingFault Sizing :=
  if usableFraction fraction then .ok { s with memoryFraction := fraction }
  else .error .memoryFraction

/-- Two sizings agree in every size. -/
def same (a b : Sizing) : Bool :=
  a.queueDepth == b.queueDepth && a.memoryFraction == b.memoryFraction &&
    a.memoryBudget == b.memoryBudget && a.spillWords == b.spillWords

/-! ## What follows from them -/

/-- The size of a raw spill in bytes, as far as sizes go. -/
def spillBytes (s : Sizing) : Nat := min (max s.spillWords 1 * 2) (UInt64.size - 1)

/-- The depth that a budget in bytes allows each of the two queues, at least
one; a spill takes two and a half times its raw size. -/
def depthFor (s : Sizing) (budget : Nat) : Nat :=
  let perSpill := (s.spillBytes.toUInt64.toFloat * 2.5).ceil
  max (budget.toUInt64.toFloat / (2.0 * perSpill)).floor.toUInt64.toNat 1

/-- The depth of each queue, capped by a budget in bytes if there is one. -/
def effectiveDepth (s : Sizing) : Nat :=
  let depth := max s.queueDepth 1
  match s.memoryBudget with
  | some budget => min depth (s.depthFor budget)
  | none => depth

/-- The memory budget, which has to be usable. -/
def budget (s : Sizing) : Except SizingFault MemoryBudget :=
  match s.memoryBudget with
  | some n => .ok (.bytes n)
  | none =>
    if usableFraction s.memoryFraction then .ok (.ofMachine s.memoryFraction)
    else .error .memoryFraction

/-- The depth of each queue under a budget in bytes. -/
def depthUnder (s : Sizing) (budget : Nat) : Nat := min (max s.queueDepth 1) (s.depthFor budget)

/-- The depth of each queue on a machine with some memory free. -/
def depthOn (s : Sizing) (free : Nat) : Except SizingFault Nat :=
  match s.budget with
  | .error fault => .error fault
  | .ok (.bytes n) => .ok (s.depthUnder n)
  | .ok (.ofMachine fraction) =>
    if free = 0 then .error .noMemory
    else .ok (s.depthUnder (free.toUInt64.toFloat * fraction).floor.toUInt64.toNat)

end Sizing

end ListMode
