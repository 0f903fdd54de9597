import ListMode.Decoder.Basic
import ListMode.Pipeline.Sizing
import ListMode.Scan

/-!
# Replaying a dump

A dump is replayed as an acquisition: a spill that opens the run, raw spills,
and a spill that closes the run.  The raw spills are runs of whole records.  A
run takes records as long as it stays within the spill size, so a record larger
than that travels alone.  What follows the last record is not replayed.  The runs
are cut off the dump one after the other, each with its own bytes (`cut_eq`).

A dump is replayed as a whole (`spills`), or one spill at a time (`Source.next`).
-/

namespace ListMode.Replay

/-- Goes on with a run of records from `start` to `stop`: gives where each run
begins and ends. -/
def runsFrom (limit start stop : Nat) : List RecordSpan → List (Nat × Nat)
  | [] => [(start, stop)]
  | r :: rs =>
    if r.stop - start ≤ limit then runsFrom limit start r.stop rs
    else (start, stop) :: runsFrom limit r.start r.stop rs

/-- Where the runs of records of a dump begin and end. -/
def runs (limit : Nat) : List RecordSpan → List (Nat × Nat)
  | [] => []
  | r :: rs => runsFrom limit r.start r.stop rs

/-- The bytes between two offsets. -/
def slice (bytes : List UInt8) (start stop : Nat) : List UInt8 :=
  (bytes.drop start).take (stop - start)

/-- The bytes of runs that follow one another, cut off the front of the bytes
from `position` on. -/
def cut (position : Nat) (bytes : List UInt8) : List (Nat × Nat) → List (List UInt8)
  | [] => []
  | (start, stop) :: rest =>
    let back := bytes.drop (start - position)
    back.take (stop - start) :: cut stop (back.drop (stop - start)) rest

/-- The runs follow one another from `position` on. -/
def Follow (position : Nat) : List (Nat × Nat) → Prop
  | [] => True
  | (start, stop) :: rest => position ≤ start ∧ start ≤ stop ∧ Follow stop rest

/-- Cutting gives each run its own bytes. -/
theorem cut_eq {bytes : List UInt8} {position : Nat} {bounds : List (Nat × Nat)}
    (h : Follow position bounds) :
    cut position (bytes.drop position) bounds =
      bounds.map fun (start, stop) => slice bytes start stop := by
  induction bounds generalizing position with
  | nil => rfl
  | cons bound rest ih =>
    obtain ⟨start, stop⟩ := bound
    obtain ⟨hstart, hstop, hrest⟩ := h
    have hfront : position + (start - position) = start := by omega
    have hback : start + (stop - start) = stop := by omega
    simp only [cut, List.drop_drop, hfront, hback, ih hrest, List.map_cons, slice]

/-- The spill with an empty snapshot of every routed channel. -/
def statsSpill (t : Topology) (phase : RunPhase) (now : Instant) : Spill :=
  Spill.ofStats (t.routedIds.map fun source => { phase, source }) phase now

/-- The spills of a dump. -/
def spills (settings : Settings) (sizing : Sizing) (now : Instant) (bytes : List UInt8) :
    List Spill :=
  let records := (Scan.scan settings.maxRecordWords bytes).records
  statsSpill settings.topology .start now ::
    (cut 0 bytes (runs sizing.spillBytes records)).map (Spill.ofRaw · now) ++
    [statsSpill settings.topology .stop now]

/-! ## One spill at a time -/

/-- What a replay gives next. -/
inductive Phase where
  /-- The spill that opens the run. -/
  | opening
  /-- Raw spills as long as there are records, and then the spill that closes the run. -/
  | running
  /-- Nothing. -/
  | over
deriving DecidableEq, Repr

/-- A replay under way. -/
structure Source where
  /-- The routing of the channels. -/
  topology : Topology
  /-- The size of a raw spill in bytes. -/
  spillBytes : Nat
  /-- The records that were not replayed yet. -/
  records : List RecordSpan
  /-- The offset behind what was replayed. -/
  position : Nat := 0
  /-- The bytes from there on. -/
  bytes : List UInt8
  /-- What is given next. -/
  phase : Phase := .opening

/-- Goes on with a run from `start` to `stop`: gives where it ends and the records
behind it. -/
def takeRun (limit start stop : Nat) : List RecordSpan → Nat × List RecordSpan
  | [] => (stop, [])
  | r :: rs => if r.stop - start ≤ limit then takeRun limit start r.stop rs else (stop, r :: rs)

namespace Source

/-- A replay that has not given a spill yet. -/
def ofDump (settings : Settings) (sizing : Sizing) (bytes : List UInt8) : Source where
  topology := settings.topology
  spillBytes := sizing.spillBytes
  records := (Scan.scan settings.maxRecordWords bytes).records
  bytes

/-- Takes the bytes of the next run of records, if a record is left. -/
def takeRaw? (s : Source) : Option (List UInt8 × Source) :=
  match s.records with
  | [] => none
  | r :: rs =>
    let (stop, records) := takeRun s.spillBytes r.start r.stop rs
    let back := s.bytes.drop (r.start - s.position)
    some (back.take (stop - r.start),
      { s with records, position := stop, bytes := back.drop (stop - r.start) })

/-- The next spill, if there is one, and the replay behind it. -/
def next (now : Instant) (s : Source) : Option Spill × Source :=
  match s.phase with
  | .opening => (some (statsSpill s.topology .start now), { s with phase := .running })
  | .running =>
    match s.takeRaw? with
    | some (raw, s) => (some (Spill.ofRaw raw now), s)
    | none => (some (statsSpill s.topology .stop now), { s with phase := .over })
  | .over => (none, s)

/-- A bound on the number of spills that are still to come. -/
def pending (s : Source) : Nat :=
  match s.phase with
  | .opening => s.records.length + 2
  | .running => s.records.length + 1
  | .over => 0

theorem length_takeRun_le (limit start : Nat) (records : List RecordSpan) : ∀ stop,
    (takeRun limit start stop records).2.length ≤ records.length := by
  induction records with
  | nil => exact fun _ => Nat.le_refl 0
  | cons r rs ih =>
    intro stop
    rw [takeRun]
    split
    · exact Nat.le_succ_of_le (ih r.stop)
    · exact Nat.le_refl _

/-- Every spill that is given brings the end nearer. -/
theorem pending_lt_of_next {now : Instant} {s s' : Source} {spill : Spill}
    (h : s.next now = (some spill, s')) : s'.pending < s.pending := by
  rw [next] at h
  split at h
  · next hphase =>
    obtain ⟨-, rfl⟩ := Prod.mk.inj h
    simp [pending, hphase]
  · next hphase =>
    split at h
    · next raw after hraw =>
      obtain ⟨-, rfl⟩ := Prod.mk.inj h
      rw [takeRaw?] at hraw
      split at hraw
      · cases hraw
      · next r rs hrecords =>
        obtain ⟨-, rfl⟩ := Prod.mk.inj (Option.some.inj hraw)
        have hle := length_takeRun_le s.spillBytes r.start rs r.stop
        simp only [pending, hphase, hrecords, List.length_cons]
        omega
    · obtain ⟨-, rfl⟩ := Prod.mk.inj h
      simp [pending, hphase]
  · cases h

/-- All spills that are still to come, given at one instant. -/
def drain (now : Instant) (s : Source) : List Spill :=
  match _h : s.next now with
  | (some spill, after) => spill :: after.drain now
  | (none, _) => []
termination_by s.pending
decreasing_by exact pending_lt_of_next _h

end Source

example : runs 24 [⟨0, 12, 0⟩, ⟨12, 24, 0⟩, ⟨24, 36, 0⟩] = [(0, 24), (24, 36)] := by decide
example : runs 4 [⟨0, 12, 0⟩, ⟨12, 24, 0⟩] = [(0, 12), (12, 24)] := by decide

end ListMode.Replay
