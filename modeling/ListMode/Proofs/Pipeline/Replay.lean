import ListMode.Pipeline.Replay
import ListMode.Proofs.Decoder.Hits
import ListMode.Proofs.Scan.Tiling

/-!
# Replayed dumps

The raw spills of a dump are its records in groups, one group behind the other
(`Replay.spills_eq`): cutting at the ends of runs takes no record apart, leaves
none out and takes none twice (`Replay.flatten_groups`).  A record is decoded the
same in every group, so where the dump as a whole is decoded without a fault,
every spill is decoded, and the hits of the spills are the hits of the dump, in
order (`Replay.decodeSpills`).
-/

namespace ListMode

/-! ## The spills of statistics -/

theorem mem_of_mem_addByKey {α : Type} {key : α → Int} {a x : α} {as : List α}
    (h : x ∈ addByKey key a as) : x = a ∨ x ∈ as := by
  induction as with
  | nil => exact .inl (List.mem_singleton.1 h)
  | cons b bs ih =>
      rw [addByKey] at h
      split at h
      · exact List.mem_cons.1 h
      · split at h
        · exact .inr h
        · rcases List.mem_cons.1 h with rfl | h
          · exact .inr List.mem_cons_self
          · exact (ih h).imp_right (List.mem_cons_of_mem b)

/-- A table holds nothing but elements of its list. -/
theorem mem_of_mem_tableOf {α : Type} {key : α → Int} {x : α} {as : List α}
    (h : x ∈ tableOf key as) : x ∈ as := by
  induction as with
  | nil => cases h
  | cons a as ih =>
      rcases mem_of_mem_addByKey h with rfl | h
      · exact List.mem_cons_self
      · exact List.mem_cons_of_mem a (ih h)

theorem Spill.phase_ofStats {stats : List Snapshot} {phase : RunPhase} {time : Instant}
    {shot : Snapshot} (h : shot ∈ (Spill.ofStats stats phase time).stats) :
    shot.phase = phase := by
  obtain ⟨_, -, rfl⟩ := List.mem_map.1 (mem_of_mem_tableOf h)
  rfl

namespace Replay

open Scan

/-- The spill that opens a replay closes no run. -/
theorem isStop_statsSpill_start (t : Topology) (now : Instant) :
    (statsSpill t .start now).isStop = false := by
  rw [Spill.isStop, List.any_eq_false]
  intro shot hshot
  rw [Spill.phase_ofStats hshot]
  decide

/-! ## The records of each spill -/

/-- Goes on with a group of records, as long as it stays within the limit. -/
def groupsFrom (limit : Nat) (group : List (List UInt8)) :
    List (List UInt8) → List (List (List UInt8))
  | [] => [group]
  | r :: rs =>
    if group.flatten.length + r.length ≤ limit then groupsFrom limit (group ++ [r]) rs
    else group :: groupsFrom limit [r] rs

/-- The records in groups. -/
def groups (limit : Nat) : List (List UInt8) → List (List (List UInt8))
  | [] => []
  | r :: rs => groupsFrom limit [r] rs

theorem flatten_groupsFrom (limit : Nat) (records : List (List UInt8)) : ∀ group,
    (groupsFrom limit group records).flatten = group ++ records := by
  induction records with
  | nil =>
      intro group
      simp [groupsFrom]
  | cons r rs ih =>
      intro group
      rw [groupsFrom]
      split
      · rw [ih, List.append_assoc, List.singleton_append]
      · rw [List.flatten_cons, ih, List.singleton_append]

/-- Every record is in one group, and the groups are in order. -/
theorem flatten_groups (limit : Nat) (records : List (List UInt8)) :
    (groups limit records).flatten = records := by
  cases records with
  | nil => rfl
  | cons r rs => exact flatten_groupsFrom limit rs [r]

/-- A run of records covers the bytes of a group. -/
theorem runsFrom_eq (limit : Nat) (records : List (List UInt8)) :
    ∀ (spans : List RecordSpan) (group : List (List UInt8)) (start : Nat),
    (spans.map fun r => (r.start, r.stop)) =
      boundsFrom (start + group.flatten.length) records →
    runsFrom limit start (start + group.flatten.length) spans =
      boundsFrom start ((groupsFrom limit group records).map List.flatten) := by
  induction records with
  | nil =>
      intro spans group start h
      rw [boundsFrom, List.map_eq_nil_iff] at h
      rw [h]
      rfl
  | cons r rs ih =>
      intro spans group start h
      cases spans with
      | nil => cases h
      | cons span spans =>
          rw [List.map_cons, boundsFrom, List.cons.injEq, Prod.mk.injEq] at h
          obtain ⟨⟨hstart, hstop⟩, hrest⟩ := h
          have hsize : span.stop - start = group.flatten.length + r.length := by omega
          rw [runsFrom, groupsFrom, hsize]
          split
          · have hgroup : (group ++ [r]).flatten.length = group.flatten.length + r.length := by
              simp
            have hnext : start + (group ++ [r]).flatten.length = span.stop := by omega
            rw [← hnext]
            refine ih spans _ start ?_
            rw [hrest, hgroup, Nat.add_assoc]
          · have hgroup : [r].flatten.length = r.length := by simp
            have hnext : span.start + [r].flatten.length = span.stop := by omega
            rw [← hnext, ih spans [r] span.start (by rw [hrest, hstart, hgroup]), List.map_cons,
              boundsFrom, hstart]

theorem runs_eq (limit : Nat) {records : List (List UInt8)} {spans : List RecordSpan}
    (h : (spans.map fun r => (r.start, r.stop)) = boundsFrom 0 records) :
    runs limit spans = boundsFrom 0 ((groups limit records).map List.flatten) := by
  cases records with
  | nil =>
      rw [boundsFrom, List.map_eq_nil_iff] at h
      rw [h]
      rfl
  | cons r rs =>
      cases spans with
      | nil => cases h
      | cons span spans =>
          rw [List.map_cons, boundsFrom, List.cons.injEq, Prod.mk.injEq] at h
          obtain ⟨⟨hstart, hstop⟩, hrest⟩ := h
          have hgroup : [r].flatten.length = r.length := by simp
          have hspan := runsFrom_eq limit rs spans [r] 0 (by rw [hgroup, hrest])
          rw [runs, groups, hstart, hstop, ← hgroup]
          exact hspan

/-- Cutting parts that follow one another gives the parts. -/
theorem cut_boundsFrom (parts : List (List UInt8)) (rest : List UInt8) : ∀ position,
    cut position (parts.flatten ++ rest) (boundsFrom position parts) = parts := by
  induction parts with
  | nil => exact fun _ => rfl
  | cons part parts ih =>
      intro position
      simp only [boundsFrom, cut, Nat.sub_self, List.drop_zero, Nat.add_sub_cancel_left,
        List.flatten_cons, List.append_assoc, List.take_left, List.drop_left, ih]

/-- The spills of a dump are its records in groups, between two spills of
statistics. -/
theorem spills_eq (settings : Settings) (sizing : Sizing) (now : Instant) {bytes : List UInt8}
    {records : List (List UInt8)} {rest : List UInt8} (hbytes : bytes = records.flatten ++ rest)
    (hbounds : ((scan settings.maxRecordWords bytes).records.map fun r => (r.start, r.stop)) =
      boundsFrom 0 records) :
    spills settings sizing now bytes =
      statsSpill settings.topology .start now ::
        (groups sizing.spillBytes records).map (fun group => Spill.ofRaw group.flatten now) ++
        [statsSpill settings.topology .stop now] := by
  have hflat : ((groups sizing.spillBytes records).map List.flatten).flatten ++ rest = bytes := by
    rw [← List.flatten_flatten, flatten_groups, hbytes]
  have hcut := cut_boundsFrom ((groups sizing.spillBytes records).map List.flatten) rest 0
  rw [hflat] at hcut
  rw [spills]
  simp only [runs_eq sizing.spillBytes hbounds, hcut, List.map_map]
  rfl

end Replay

/-! ## Decoding the records of a spill -/

namespace Settings

/-- The hits of a record. -/
def recordHits (s : Settings) (record : List UInt8) : List Hit :=
  (Buffer.eventsOf (Word.ofBytes record)).flatMap s.group

theorem flatMap_group_eventsOf (s : Settings) (records : List (List UInt8)) :
    (records.flatMap fun r => Buffer.eventsOf (Word.ofBytes r)).flatMap s.group =
      records.flatMap s.recordHits :=
  List.flatMap_assoc

theorem read_flatten {limit : Nat} {records : List (List UInt8)}
    (hwhole : ∀ r ∈ records, Scan.WholeRecord limit r)
    (hsound : ∀ r ∈ records, Buffer.Sound (Word.ofBytes r)) :
    Buffer.read limit records.flatten =
      { events := records.flatMap fun r => Buffer.eventsOf (Word.ofBytes r)
        records := records.length } := by
  have hsounds : ∀ ws ∈ records.map Word.ofBytes, Buffer.Sound ws := by
    intro ws hws
    obtain ⟨r, hr, rfl⟩ := List.mem_map.1 hws
    exact hsound r hr
  rw [Buffer.read, Scan.ofBytes_flatten hwhole,
    Buffer.readFrom_flatten (Scan.framed_of_mem_map hwhole) hsounds, List.flatMap_map,
    List.length_map]

theorem sound_of_read {limit : Nat} {records : List (List UInt8)}
    (hwhole : ∀ r ∈ records, Scan.WholeRecord limit r)
    (h : (Buffer.read limit records.flatten).fault = none) :
    ∀ r ∈ records, Buffer.Sound (Word.ofBytes r) := by
  rw [Buffer.read, Scan.ofBytes_flatten hwhole] at h
  intro r hr
  exact Buffer.sound_of_readFrom (Scan.framed_of_mem_map hwhole) h _ (List.mem_map_of_mem hr)

/-- A spill without raw bytes is decoded to itself. -/
theorem decodeSpill?_of_raw_eq_nil (s : Settings) {spill : Spill} (h : spill.raw = []) :
    s.decodeSpill? spill = some spill := by
  have hread : Buffer.read s.maxRecordWords [] = {} := by
    rw [Buffer.read, Word.ofBytes_nil, Buffer.readFrom]
  have hroom : s.hasRoom {} = true := by simp [hasRoom]
  obtain ⟨raw, hits, stats, time⟩ := spill
  obtain rfl : raw = [] := h
  rw [decodeSpill?, decode?]
  simp only [hread, hroom, if_true, Option.map_some, decoded, List.flatMap_nil, List.append_nil]

theorem decodeSpill?_flatten {s : Settings} {records : List (List UInt8)}
    (hwhole : ∀ r ∈ records, Scan.WholeRecord s.maxRecordWords r)
    (hsound : ∀ r ∈ records, Buffer.Sound (Word.ofBytes r))
    (hroom : s.hasRoom (Buffer.read s.maxRecordWords records.flatten) = true) (now : Instant) :
    s.decodeSpill? (Spill.ofRaw records.flatten now) =
      some { hits := records.flatMap s.recordHits, time := now } := by
  have hread := read_flatten hwhole hsound
  rw [decodeSpill?, decode?, Spill.ofRaw]
  simp only [hroom, if_true, Option.map_some, decoded]
  rw [hread, flatMap_group_eventsOf, List.nil_append]

end Settings

namespace Replay

theorem mapM_eq_some_map {α β : Type} {f : α → Option β} {g : α → β} {as : List α}
    (h : ∀ a ∈ as, f a = some (g a)) : as.mapM f = some (as.map g) := by
  induction as with
  | nil => rfl
  | cons a as ih =>
      rw [List.forall_mem_cons] at h
      rw [List.mapM_cons, h.1, ih h.2]
      rfl

/-- Where a dump is decoded without a fault, so is every spill of it, and the
hits of the spills are those of the dump, in order. -/
theorem decodeSpills {settings : Settings} {bytes : List UInt8} {d : Decoded}
    (hd : settings.decode? (bytes.take (Scan.scan settings.maxRecordWords bytes).consumed) = some d)
    (hfault : d.fault = none) (sizing : Sizing) (now : Instant) :
    ∃ hits : List (List Hit), hits.flatten = d.hits ∧
      (spills settings sizing now bytes).mapM settings.decodeSpill? =
        some (statsSpill settings.topology .start now ::
          hits.map (fun hits => { hits, time := now }) ++
          [statsSpill settings.topology .stop now]) := by
  obtain ⟨records, rest, hbytes, hwhole, hbounds, hconsumed⟩ :=
    Scan.scanFrom_tiles settings.maxRecordWords 0 bytes
  rw [Scan.take_consumed hbytes hconsumed] at hd
  obtain ⟨hroom, hdecode⟩ := Settings.decode?_eq_some_iff.1 hd
  have hsound := Settings.sound_of_read hwhole (by
    rw [← hdecode] at hfault
    exact hfault)
  have hmem : ∀ group ∈ groups sizing.spillBytes records, ∀ r ∈ group, r ∈ records := by
    intro group hgroup r hr
    rw [← flatten_groups sizing.spillBytes records]
    exact List.mem_flatten.2 ⟨group, hgroup, hr⟩
  have hspill : ∀ group ∈ groups sizing.spillBytes records,
      settings.decodeSpill? (Spill.ofRaw group.flatten now) =
        some { hits := group.flatMap settings.recordHits, time := now } := by
    intro group hgroup
    have hwholes := fun r hr => hwhole r (hmem group hgroup r hr)
    have hsounds := fun r hr => hsound r (hmem group hgroup r hr)
    refine Settings.decodeSpill?_flatten hwholes hsounds (Settings.hasRoom_of_subset hroom ?_) now
    rw [Settings.read_flatten hwholes hsounds, Settings.read_flatten hwhole hsound]
    simp only [Option.toList_none, List.append_nil, List.mem_flatMap]
    rintro e ⟨r, hr, he⟩
    exact ⟨r, hmem group hgroup r hr, he⟩
  refine ⟨(groups sizing.spillBytes records).map fun group => group.flatMap settings.recordHits,
    ?_, ?_⟩
  · rw [← hdecode, Settings.decode, Settings.decoded, Settings.read_flatten hwhole hsound]
    simp only [Settings.flatMap_group_eventsOf]
    rw [← flatten_groups sizing.spillBytes records, List.flatMap_def, List.map_flatten,
      List.flatten_flatten, List.map_map, flatten_groups]
    rfl
  · have hstats : ∀ phase, settings.decodeSpill? (statsSpill settings.topology phase now) =
        some (statsSpill settings.topology phase now) :=
      fun phase => settings.decodeSpill?_of_raw_eq_nil rfl
    have hraw : ((groups sizing.spillBytes records).map fun group =>
        Spill.ofRaw group.flatten now).mapM settings.decodeSpill? =
          some ((groups sizing.spillBytes records).map fun group =>
            { hits := group.flatMap settings.recordHits, time := now }) := by
      rw [List.mapM_map]
      exact mapM_eq_some_map hspill
    rw [spills_eq settings sizing now hbytes hbounds, List.cons_append, List.mapM_cons, hstats,
      List.mapM_append, hraw, List.mapM_cons, hstats, List.map_map]
    rfl

end Replay

end ListMode
