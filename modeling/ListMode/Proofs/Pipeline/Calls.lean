import ListMode.Proofs.Pipeline.Replay
import ListMode.Proofs.Scan.Resumption

/-!
# A replay call by call

*Groups.*  The records of a dump are taken in groups (`Replay.groups`).  A group holds a
record, and it is within the size of a spill unless it holds only one
(`Replay.admissible_groups`).  It ends where the next record would not fit any more
(`Replay.full_groups`).

*Calls.*  A replay under way owes the groups that are still to come (`Source.Owes`).  One
call gives the bytes of the first group and owes the others, or closes the run when none
is left (`Source.Owes.next_cons`, `Source.Owes.next_nil`).  So the calls give the spill
that opens the run, a raw spill for each group, the spill that closes the run, and then
nothing (`Source.calls_cover_records`).

Taking one spill after the other gives the spills of the dump as a whole
(`Source.drain_ofDump`).
-/

namespace ListMode

open Scan

/-! ## Spills of statistics -/

theorem mem_map_addByKey {α : Type} {key : α → Int} {a : α} {as : List α} {k : Int} :
    k ∈ (addByKey key a as).map key ↔ k = key a ∨ k ∈ as.map key := by
  induction as with
  | nil => simp [addByKey]
  | cons b bs ih =>
      rw [addByKey]
      split
      · rw [List.map_cons, List.mem_cons]
      · split
        · next heq =>
            rw [List.map_cons, List.mem_cons, ← heq]
            exact (or_self_left ..).symm
        · rw [List.map_cons, List.mem_cons, ih, List.map_cons, List.mem_cons]
          exact or_left_comm

/-- A table has the keys of its list. -/
theorem mem_map_tableOf {α : Type} {key : α → Int} {as : List α} {k : Int} :
    k ∈ (tableOf key as).map key ↔ k ∈ as.map key := by
  induction as with
  | nil => exact Iff.rfl
  | cons a as ih =>
      have hcons : tableOf key (a :: as) = addByKey key a (tableOf key as) := rfl
      rw [hcons, mem_map_addByKey, ih, List.map_cons, List.mem_cons]

/-- The spill holds an empty snapshot of each routed channel, and nothing else. -/
structure Spill.OnlyStatistics (t : Topology) (phase : RunPhase) (now : Instant) (spill : Spill) :
    Prop where
  raw : spill.raw = []
  hits : spill.hits = []
  time : spill.time = now
  stats : ∀ shot ∈ spill.stats, shot.phase = phase ∧ shot.items = [] ∧ shot.labTime = some now
  sources : ∀ id, id ∈ spill.stats.map (·.source) ↔ id ∈ t.routedIds

namespace Replay

theorem onlyStatistics_statsSpill (t : Topology) (phase : RunPhase) (now : Instant) :
    (statsSpill t phase now).OnlyStatistics t phase now where
  raw := rfl
  hits := rfl
  time := rfl
  stats := by
    intro shot hshot
    have hmem := mem_of_mem_tableOf hshot
    simp only [List.map_map, List.mem_map] at hmem
    obtain ⟨id, -, rfl⟩ := hmem
    exact ⟨rfl, rfl, rfl⟩
  sources := by
    intro id
    have hinj : Function.Injective Int16.toInt := fun _ _ => Int16.toInt.inj
    calc id ∈ (statsSpill t phase now).stats.map (·.source)
        ↔ id.toInt ∈ ((statsSpill t phase now).stats.map (·.source)).map Int16.toInt :=
          (List.mem_map_of_injective hinj).symm
      _ ↔ id.toInt ∈ (statsSpill t phase now).stats.map (·.source.toInt) := by
          rw [List.map_map, Function.comp_def]
      _ ↔ id.toInt ∈ t.routedIds.map Int16.toInt := by
          rw [statsSpill, Spill.ofStats, snapshotTable, mem_map_tableOf, List.map_map, List.map_map]
          rfl
      _ ↔ id ∈ t.routedIds := List.mem_map_of_injective hinj

/-! ## Groups -/

/-- The records can be one spill: there is one, and they are within the limit unless there
is only one. -/
def Admissible (limit : Nat) (group : List (List UInt8)) : Prop :=
  group ≠ [] ∧ (group.flatten.length ≤ limit ∨ group.length = 1)

/-- The first record of the next group would not be within the limit any more. -/
def Full (limit : Nat) (group next : List (List UInt8)) : Prop :=
  ∀ r ∈ next.head?, limit < group.flatten.length + r.length

variable {limit : Nat}

theorem length_flatten_concat (group : List (List UInt8)) (r : List UInt8) :
    (group ++ [r]).flatten.length = group.flatten.length + r.length := by
  simp

theorem admissible_groupsFrom (records : List (List UInt8)) : ∀ {group}, Admissible limit group →
    ∀ g ∈ groupsFrom limit group records, Admissible limit g := by
  induction records with
  | nil =>
      intro group hgroup g hg
      rw [groupsFrom, List.mem_singleton] at hg
      rwa [hg]
  | cons r rs ih =>
      intro group hgroup g hg
      rw [groupsFrom] at hg
      split at hg
      · next hfits =>
          refine ih ⟨by simp, .inl ?_⟩ g hg
          rwa [length_flatten_concat]
      · rcases List.mem_cons.1 hg with rfl | hg
        · exact hgroup
        · exact ih ⟨List.cons_ne_nil r [], .inr rfl⟩ g hg

theorem admissible_groups (records : List (List UInt8)) :
    ∀ g ∈ groups limit records, Admissible limit g := by
  cases records with
  | nil => exact fun _ hg => absurd hg List.not_mem_nil
  | cons r rs => exact admissible_groupsFrom rs ⟨List.cons_ne_nil r [], .inr rfl⟩

/-- A run takes the records that go on with a group, and leaves those of the next groups. -/
theorem takeRun_spansFrom (limit start : Nat) (records : List (List UInt8)) : ∀ group,
    ∃ taken later, records = taken ++ later ∧
      groupsFrom limit group records = (group ++ taken) :: groups limit later ∧
      takeRun limit start (start + group.flatten.length)
          (spansFrom (start + group.flatten.length) records) =
        (start + (group ++ taken).flatten.length,
          spansFrom (start + (group ++ taken).flatten.length) later) := by
  induction records with
  | nil =>
      intro group
      refine ⟨[], [], rfl, ?_, ?_⟩
      · rw [groupsFrom, List.append_nil, groups]
      · rw [List.append_nil]
        rfl
  | cons r rs ih =>
      intro group
      have hsize : start + group.flatten.length + r.length - start =
          group.flatten.length + r.length := by omega
      rw [groupsFrom, spansFrom, takeRun]
      simp only [spanAt, hsize]
      split
      · obtain ⟨taken, later, rfl, hgroups, hrun⟩ := ih (group ++ [r])
        rw [length_flatten_concat, ← Nat.add_assoc] at hrun
        refine ⟨r :: taken, later, rfl, ?_, ?_⟩
        · rw [hgroups, List.append_assoc, List.singleton_append]
        · rw [hrun, List.append_assoc, List.singleton_append]
      · refine ⟨[], r :: rs, rfl, ?_, ?_⟩
        · rw [List.append_nil, groups]
        · rw [List.append_nil]
          rfl

theorem full_groupsFrom (records : List (List UInt8)) : ∀ group,
    (groupsFrom limit group records).IsChain (Full limit) := by
  induction records with
  | nil =>
      intro group
      exact .singleton group
  | cons r rs ih =>
      intro group
      rw [groupsFrom]
      split
      · exact ih (group ++ [r])
      · next hfull =>
          have hrest := ih [r]
          obtain ⟨taken, later, -, hgroups, -⟩ := takeRun_spansFrom limit 0 rs [r]
          rw [hgroups] at hrest ⊢
          refine List.isChain_cons_cons.2 ⟨?_, hrest⟩
          intro r' hr'
          obtain rfl : r = r' := by simpa using hr'
          exact Nat.not_le.1 hfull

theorem full_groups (records : List (List UInt8)) :
    (groups limit records).IsChain (Full limit) := by
  cases records with
  | nil => exact .nil
  | cons r rs => exact full_groupsFrom rs [r]

end Replay

namespace Replay.Source

variable {t : Topology} {limit : Nat} {s : Source} {group : List (List UInt8)}
  {later : List (List (List UInt8))}

/-- A replay that has opened the run and has the records of some groups still to come. -/
structure Owes (t : Topology) (limit : Nat) (due : List (List (List UInt8))) (s : Source) :
    Prop where
  topology : s.topology = t
  spillBytes : s.spillBytes = limit
  phase : s.phase = .running
  /-- The records of the groups are at the front of the bytes. -/
  records : ∃ records rest, groups limit records = due ∧
    s.records = spansFrom s.position records ∧ s.bytes = records.flatten ++ rest

/-- A call gives the bytes of the group that is due. -/
theorem Owes.next_cons (h : s.Owes t limit (group :: later)) (now : Instant) :
    (s.next now).1 = some (Spill.ofRaw group.flatten now) ∧ (s.next now).2.Owes t limit later := by
  obtain ⟨htopology, hlimit, hphase, records, rest, hgroups, hrecords, hbytes⟩ := h
  cases records with
  | nil => cases hgroups
  | cons r rs =>
      obtain ⟨taken, behind, rfl, hfrom, hrun⟩ := takeRun_spansFrom limit s.position rs [r]
      have hone : [r].flatten.length = r.length := by simp
      rw [hone] at hrun
      rw [groups, hfrom, List.cons.injEq] at hgroups
      obtain ⟨rfl, rfl⟩ := hgroups
      have hraw : s.takeRaw? = some (([r] ++ taken).flatten,
          { s with
            records := spansFrom (s.position + ([r] ++ taken).flatten.length) behind
            position := s.position + ([r] ++ taken).flatten.length
            bytes := behind.flatten ++ rest }) := by
        have hfront : s.bytes = ([r] ++ taken).flatten ++ (behind.flatten ++ rest) := by
          rw [hbytes]
          simp
        rw [takeRaw?, hrecords, spansFrom]
        simp only [spanAt, hlimit, hrun, Nat.sub_self, List.drop_zero, Nat.add_sub_cancel_left]
        rw [hfront, List.take_left, List.drop_left]
      rw [next, hphase, hraw]
      exact ⟨rfl, htopology, hlimit, hphase, behind, rest, rfl, rfl, rfl⟩

/-- When no group is due, a call closes the run. -/
theorem Owes.next_nil (h : s.Owes t limit []) (now : Instant) :
    (s.next now).1 = some (statsSpill t .stop now) ∧ (s.next now).2.phase = .over := by
  obtain ⟨htopology, hlimit, hphase, records, rest, hgroups, hrecords, hbytes⟩ := h
  cases records with
  | nil =>
      have hraw : s.takeRaw? = none := by
        rw [takeRaw?, hrecords]
        rfl
      rw [next, hphase, hraw, htopology]
      exact ⟨rfl, rfl⟩
  | cons r rs =>
      obtain ⟨taken, behind, -, hfrom, -⟩ := takeRun_spansFrom limit 0 rs [r]
      rw [groups, hfrom] at hgroups
      cases hgroups

/-- When the run is closed, a call gives nothing and changes nothing. -/
theorem next_over (h : s.phase = .over) (now : Instant) : s.next now = (none, s) := by
  rw [next, h]

/-! ## Calls one after the other -/

/-- A replay after a number of calls, made at the instants of a clock. -/
def after (clock : Nat → Instant) (s : Source) : Nat → Source
  | 0 => s
  | n + 1 => ((s.after clock n).next (clock n)).2

/-- What call `n` gives, if the first is call 0. -/
def call (clock : Nat → Instant) (s : Source) (n : Nat) : Option Spill :=
  ((s.after clock n).next (clock n)).1

/-- The first call opens the run, and then the groups of all records are due. -/
theorem owes_ofDump (settings : Settings) (sizing : Sizing) {bytes rest : List UInt8}
    {records : List (List UInt8)} (hbytes : bytes = records.flatten ++ rest)
    (hrecords : (scan settings.maxRecordWords bytes).records = spansFrom 0 records)
    (now : Instant) :
    ((ofDump settings sizing bytes).next now).2.Owes settings.topology sizing.spillBytes
      (groups sizing.spillBytes records) where
  topology := rfl
  spillBytes := rfl
  phase := rfl
  records := ⟨records, rest, rfl, hrecords, hbytes⟩

variable {clock : Nat → Instant} {due : List (List (List UInt8))}

/-- Each call after the first one gives a group. -/
theorem owes_after (h : (s.after clock 1).Owes t limit due) :
    ∀ i ≤ due.length, (s.after clock (i + 1)).Owes t limit (due.drop i) := by
  intro i
  induction i with
  | zero => exact fun _ => h
  | succ i ih =>
      intro hi
      have howes := ih (by omega)
      rw [List.drop_eq_getElem_cons hi] at howes
      exact (howes.next_cons (clock (i + 1))).2

theorem over_after (h : (s.after clock 1).Owes t limit due) (k : Nat) :
    (s.after clock (due.length + 2 + k)).phase = .over := by
  induction k with
  | zero =>
      have howes := owes_after h due.length (Nat.le_refl _)
      rw [List.drop_length] at howes
      exact (howes.next_nil (clock (due.length + 1))).2
  | succ k ih =>
      rw [← Nat.add_assoc, after, next_over ih]
      exact ih

/-! ## Whole replays -/

theorem map_bounds_spansFrom (records : List (List UInt8)) : ∀ offset,
    ((spansFrom offset records).map fun r => (r.start, r.stop)) = boundsFrom offset records := by
  induction records with
  | nil => exact fun _ => rfl
  | cons r rs ih =>
      intro offset
      rw [spansFrom, List.map_cons, ih, boundsFrom]
      rfl

/-- Where a record lies, its bytes are. -/
theorem map_slice_spansFrom (rest : List UInt8) (records : List (List UInt8)) : ∀ before,
    ((spansFrom before.length records).map fun r =>
      slice (before ++ (records.flatten ++ rest)) r.start r.stop) = records := by
  induction records with
  | nil => exact fun _ => rfl
  | cons r rs ih =>
      intro before
      rw [List.flatten_cons, List.append_assoc, spansFrom, List.map_cons, List.cons.injEq]
      constructor
      · simp only [spanAt, slice, List.drop_left, Nat.add_sub_cancel_left, List.take_left]
      · have hrest := ih (before ++ r)
        rwa [List.length_append, List.append_assoc] at hrest

theorem drain_of_next {s s' : Source} {now : Instant} {spill : Spill}
    (h : s.next now = (some spill, s')) : s.drain now = spill :: s'.drain now := by
  rw [drain]
  split
  · next heq =>
      rw [h] at heq
      obtain ⟨hspill, rfl⟩ := Prod.mk.inj heq
      rw [Option.some.inj hspill]
  · next heq =>
      rw [h] at heq
      cases heq

theorem drain_over (h : s.phase = .over) (now : Instant) : s.drain now = [] := by
  rw [drain]
  split
  · next heq =>
      rw [next_over h] at heq
      cases heq
  · rfl

theorem Owes.drain (now : Instant) (h : s.Owes t limit due) :
    s.drain now = due.map (fun group => Spill.ofRaw group.flatten now) ++
      [statsSpill t .stop now] := by
  induction due generalizing s with
  | nil =>
      obtain ⟨hlast, hover⟩ := h.next_nil now
      rw [drain_of_next (Prod.ext hlast rfl), drain_over hover]
      rfl
  | cons group later ih =>
      obtain ⟨hraw, howes⟩ := h.next_cons now
      rw [drain_of_next (Prod.ext hraw rfl), ih howes]
      rfl

/-- Taking one spill after the other gives the spills of the whole dump. -/
theorem drain_ofDump (settings : Settings) (sizing : Sizing) (now : Instant) (bytes : List UInt8) :
    (ofDump settings sizing bytes).drain now = spills settings sizing now bytes := by
  obtain ⟨records, rest, stop, hbytes, -, -, hscan⟩ :=
    exists_stopsAt settings.maxRecordWords bytes
  have hrecords : (scan settings.maxRecordWords bytes).records = spansFrom 0 records :=
    congrArg Scan.records hscan
  have hbounds := map_bounds_spansFrom records 0
  rw [← hrecords] at hbounds
  have hopened : (ofDump settings sizing bytes).next now =
      (some (statsSpill settings.topology .start now),
        ((ofDump settings sizing bytes).next now).2) := rfl
  rw [spills_eq settings sizing now hbytes hbounds, drain_of_next hopened,
    (owes_ofDump settings sizing hbytes hrecords now).drain now]
  rfl

/-- A replay gives the spill that opens the run, then the accepted records in groups, each
cut where the next record does not fit, then the spill that closes the run, and then
nothing. -/
theorem calls_cover_records (settings : Settings) (sizing : Sizing) (bytes : List UInt8)
    (clock : Nat → Instant) :
    let found := scan settings.maxRecordWords bytes
    let call := (ofDump settings sizing bytes).call clock
    ∃ groups : List (List (List UInt8)),
      groups.flatten = (found.records.map fun r => slice bytes r.start r.stop) ∧
      (groups.map List.flatten).flatten = bytes.take found.consumed ∧
      (∀ g ∈ groups, Admissible sizing.spillBytes g) ∧
      groups.IsChain (Full sizing.spillBytes) ∧
      (∃ first, call 0 = some first ∧
        first.OnlyStatistics settings.topology .start (clock 0)) ∧
      (∀ i (h : i < groups.length),
        call (i + 1) = some (Spill.ofRaw groups[i].flatten (clock (i + 1)))) ∧
      (∃ last, call (groups.length + 1) = some last ∧
        last.OnlyStatistics settings.topology .stop (clock (groups.length + 1))) ∧
      ∀ n, groups.length + 1 < n → call n = none := by
  intro found call
  obtain ⟨records, rest, stop, hbytes, -, -, hscan⟩ :=
    exists_stopsAt settings.maxRecordWords bytes
  have howes : ((ofDump settings sizing bytes).after clock 1).Owes settings.topology
      sizing.spillBytes (groups sizing.spillBytes records) :=
    owes_ofDump settings sizing hbytes (congrArg Scan.records hscan) (clock 0)
  have hflatten := flatten_groups sizing.spillBytes records
  refine ⟨groups sizing.spillBytes records, ?_, ?_, admissible_groups records,
    full_groups records, ⟨_, rfl, onlyStatistics_statsSpill _ _ _⟩, ?_,
    ⟨_, ?_, onlyStatistics_statsSpill _ _ _⟩, ?_⟩
  · have hslices := map_slice_spansFrom rest records []
    rw [List.nil_append, ← hbytes] at hslices
    rw [hflatten, show found = _ from hscan]
    exact hslices.symm
  · rw [← List.flatten_flatten, hflatten, show found = _ from hscan, hbytes, List.take_left]
  · intro i h
    have hdue := owes_after howes i (Nat.le_of_lt h)
    rw [List.drop_eq_getElem_cons h] at hdue
    exact (hdue.next_cons (clock (i + 1))).1
  · have hdue := owes_after howes _ (Nat.le_refl _)
    rw [List.drop_length] at hdue
    exact (hdue.next_nil (clock _)).1
  · intro n hn
    obtain ⟨k, rfl⟩ := Nat.exists_eq_add_of_le hn
    exact congrArg Prod.fst (next_over (over_after howes k) _)

/-- Three records of 6, 6 and 14 words, and a byte left over. -/
def unevenDump : List UInt8 :=
  Word.toBytes ([6, 0, 0, 0, 0, 0, 6, 0, 0, 0, 0, 0, 14] ++ List.replicate 13 0) ++ [6]

-- with room for twelve words, the first two records share a spill and the third is too long
example : (List.range 5).map (fun n =>
    ((ofDump {} { spillWords := 12 } unevenDump).call (fun _ => 0) n).map (·.raw.length)) =
      [some 0, some 24, some 28, some 0, none] := by
  decide +kernel

end Replay.Source

end ListMode
