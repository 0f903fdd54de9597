import ListMode.Hit.Basic
import ListMode.Record.Header

/-!
# Topologies

A topology says which source channel each channel of each module is.  A module
has one row of four ids; a negative id, or a module past the last row, means
that no detector is attached.  Usable settings route no source id from two
channels, which `Topology.routesApart` decides in one pass over the ids
(`routesApart_iff`).
-/

namespace ListMode

/-- The source ids of one module's channels, channel zero first. -/
abbrev ModuleRow := Vector SourceId channelsPerModule

/-- The id of a channel with no detector. -/
def unrouted : SourceId := -1

/-- A row for every module, module zero first. -/
structure Topology where
  /-- The rows. -/
  rows : List ModuleRow
deriving DecidableEq, Repr

namespace Topology

/-- The topology that numbers every channel of `modules` modules from zero on,
as far as there are ids. -/
def sequential (modules : Nat) : Topology :=
  ⟨(List.range modules).map fun m => Vector.ofFn fun c =>
    let id := m * channelsPerModule + c
    if id < 32768 then Int16.ofNat id else unrouted⟩

instance : Inhabited Topology := ⟨sequential 1⟩

/-- A row for the given ids, the channels after them being unrouted; nothing
when there are more ids than channels. -/
def row? (ids : List SourceId) : Option ModuleRow :=
  if ids.length ≤ channelsPerModule then some (Vector.ofFn fun c => ids[c.val]?.getD unrouted)
  else none

/-- The source id of a channel of a module. -/
def source (t : Topology) (module channel : Nat) : SourceId :=
  match t.rows[module]? with
  | some row => row[channel]?.getD unrouted
  | none => unrouted

/-- The routed source ids, module by module. -/
def routedIds (t : Topology) : List SourceId :=
  (t.rows.flatMap (·.toList)).filter (0 ≤ ·)

/-! ## Ids routed once -/

/-- The numbers are distinct, and none is a set bit of `marks`. -/
def unmarked (marks : Nat) : List Nat → Bool
  | [] => true
  | i :: is => !marks.testBit i && unmarked (marks ||| 1 <<< i) is

theorem testBit_mark {marks i j : Nat} :
    (marks ||| 1 <<< i).testBit j = (marks.testBit j || decide (i = j)) := by
  rw [Nat.testBit_or, Nat.one_shiftLeft, Nat.testBit_two_pow]

theorem unmarked_iff {marks : Nat} {is : List Nat} :
    unmarked marks is = true ↔ is.Nodup ∧ ∀ i ∈ is, marks.testBit i = false := by
  induction is generalizing marks with
  | nil => simp [unmarked]
  | cons i is ih =>
    rw [unmarked, Bool.and_eq_true, ih, List.nodup_cons]
    simp only [testBit_mark, Bool.not_eq_true', Bool.or_eq_false_iff, decide_eq_false_iff_not,
      List.forall_mem_cons]
    constructor
    · rintro ⟨hi, hnodup, his⟩
      exact ⟨⟨fun hmem => (his i hmem).2 rfl, hnodup⟩, hi, fun j hj => (his j hj).1⟩
    · rintro ⟨⟨hmem, hnodup⟩, hi, his⟩
      exact ⟨hi, hnodup, fun j hj => ⟨his j hj, fun hij => hmem (hij ▸ hj)⟩⟩

/-- No source id is routed from two channels. -/
def routesApart (t : Topology) : Bool := unmarked 0 (t.routedIds.map Int16.toNatClampNeg)

theorem nonneg_of_mem_routedIds {t : Topology} {id : SourceId} (h : id ∈ t.routedIds) :
    0 ≤ id.toInt := by
  simpa [routedIds, Int16.le_iff_toInt_le] using (List.mem_filter.1 h).2

theorem routesApart_iff {t : Topology} : t.routesApart = true ↔ t.routedIds.Nodup := by
  rw [routesApart, unmarked_iff, List.Nodup, List.pairwise_map]
  simp only [Nat.zero_testBit, implies_true, and_true]
  refine ⟨fun h => h.imp fun hne heq => hne (congrArg _ heq), fun h => ?_⟩
  refine h.imp_of_mem fun {a b} ha hb hne heq => hne (Int16.toInt.inj ?_)
  have := nonneg_of_mem_routedIds ha
  have := nonneg_of_mem_routedIds hb
  simp only [Int16.toNatClampNeg] at heq
  omega

end Topology

example : Topology.routedIds default = [0, 1, 2, 3] := by decide
example : (Topology.mk [#v[0, 1, -1, -1], #v[-1, 0, -1, -1]]).routesApart = false := by decide

end ListMode
