import ListMode.Proofs.Pipeline.Replay
import ListMode.Proofs.Spectrum.Feeding

/-!
# The size of the spills

A dump that is replayed into a spectrum leaves the same counts whatever the size
of its spills (`Spectrum.tally_replay`): those that the hits of the whole
dump leave when they are pushed at once.  Cutting the dump takes no record
apart, so the spills hold the same hits in the same order
(`Replay.decodeSpills`).  The builder carries its open events from one spill to
the next, so it closes the same events for them
(`Coincidence.Builder.feedAll_pushes`), and the counts depend on nothing else
(`Spectrum.tally_feedAll`).
-/

namespace ListMode.Spectrum

open Coincidence (Builder)

/-- The tally of a spectrum once a dump was replayed into it and the open events
were flushed, if every spill of the dump can be decoded. -/
def replayed? (s : Spectrum) (settings : Settings) (sizing : Sizing) (now : Instant)
    (bytes : List UInt8) : Option Tally :=
  ((Replay.spills settings sizing now bytes).mapM settings.decodeSpill?).map fun spills =>
    (s.feedAll (spills.map .push ++ [.flush])).tally

/-- The events that a replay closes are those that its hits close when they are
pushed at once. -/
theorem closedBy_replay (s : Spectrum) (t : Topology) (now : Instant) (hits : List (List Hit)) :
    s.closedBy ((Replay.statsSpill t .start now :: hits.map (fun hits => { hits, time := now }) ++
      [Replay.statsSpill t .stop now]).map .push ++ [.flush]) =
      s.closedBy [.push { hits := hits.flatten }, .flush] := by
  have hrunning : ∀ spill ∈ Replay.statsSpill t .start now ::
      hits.map (fun hits => ({ hits, time := now } : Spill)), spill.isStop = false := by
    rw [List.forall_mem_cons]
    refine ⟨Replay.isStop_statsSpill_start t now, fun spill hspill => ?_⟩
    obtain ⟨_, -, rfl⟩ := List.mem_map.1 hspill
    rfl
  have hwhole : ∀ spill ∈ [({ hits := hits.flatten } : Spill)], spill.isStop = false := by
    intro spill hspill
    obtain rfl := List.mem_singleton.1 hspill
    rfl
  have hhits : (Replay.statsSpill t .start now ::
      hits.map (fun hits => ({ hits, time := now } : Spill))).flatMap Spill.hits =
        hits.flatten := by
    rw [List.flatMap_cons, List.flatMap_map]
    exact List.flatMap_id
  have hreplay := Builder.snd_feedAll_pushes_append (takes s.metadata) hrunning
    (Builder.snd_feedAll_push_flush _ (Replay.statsSpill t .stop now) rfl) s.builder
  have honce := Builder.snd_feedAll_pushes_append (takes s.metadata) hwhole
    (Builder.snd_feedAll_flush _) s.builder
  rw [hhits] at hreplay
  rw [List.flatMap_singleton] at honce
  rw [closedBy, closedBy, List.map_append, List.append_assoc]
  exact hreplay.trans honce.symm

/-- The counts of a replayed dump are those of all its hits at once. -/
theorem tally_replay {s : Spectrum} (hs : s.ready = true) {settings : Settings}
    {bytes : List UInt8} {d : Decoded}
    (hd : settings.decode? (bytes.take (Scan.scan settings.maxRecordWords bytes).consumed) = some d)
    (hfault : d.fault = none) (sizing : Sizing) (now : Instant) :
    s.replayed? settings sizing now bytes =
      some (s.feedAll [.push { hits := d.hits }, .flush]).tally := by
  obtain ⟨hits, hall, hspills⟩ := Replay.decodeSpills hd hfault sizing now
  rw [replayed?, hspills, Option.map_some, tally_feedAll hs, tally_feedAll hs]
  rw [closedBy_replay, hall]

/-- Two records of one event each, and a byte left over. -/
def twoRecordDump : List UInt8 :=
  Word.toBytes [11, 0, 0x0103, 0, 0, 0, 0x0101, 0, 0x0100, 0x10, 5,
    11, 0, 0x0103, 0, 0, 0, 0x0101, 0, 0x0100, 0x20, 7] ++ [0xFF]

/-- What its records hold. -/
def twoRecordDecoded : Decoded :=
  Settings.decode {} (twoRecordDump.take (Scan.scan 8192 twoRecordDump).consumed)

theorem tally_replay_twoRecordDump : twoRecordDecoded.hits.length = 2 ∧
    ∃ s, setUp .one { dimensions := 1, bits := 4, add := .ofChannels [0] } = .ok s ∧
      s.replayed? {} { spillWords := 1 } 0 twoRecordDump =
        some (s.feedAll [.push { hits := twoRecordDecoded.hits }, .flush]).tally ∧
      s.replayed? {} { spillWords := 1 } 0 twoRecordDump =
        s.replayed? {} { spillWords := 8192 } 0 twoRecordDump := by
  obtain ⟨s, hs⟩ : ∃ s, setUp .one { dimensions := 1, bits := 4, add := .ofChannels [0] } = .ok s :=
    ⟨_, rfl⟩
  have hready : s.ready = true := by
    obtain rfl := Except.ok.inj hs
    rfl
  have hdecode : Settings.decode? {} (twoRecordDump.take (Scan.scan 8192 twoRecordDump).consumed) =
      some twoRecordDecoded := Settings.decode?_of_fits rfl _
  have hfault : twoRecordDecoded.fault = none := by decide +kernel
  have hreplay := fun sizing => tally_replay hready hdecode hfault sizing 0
  exact ⟨by decide +kernel, s, hs, hreplay _, (hreplay _).trans (hreplay _).symm⟩

end ListMode.Spectrum
