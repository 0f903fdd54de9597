import ListMode.Proofs.Decoder.Hits
import ListMode.Proofs.Record.Continuation
import ListMode.Proofs.Word.Bytes

/-!
# Decoding piece by piece

A buffer can be decoded as it comes in (`Settings.decode_append`).  The hits
decoded of what is there are the first hits of the whole buffer, wherever the cut
falls: in a word, in a record, or behind a fault.  And when what is there was
decoded to its end, the bytes behind it decode by themselves, up to the offsets of
their faults.
-/

namespace ListMode.Settings

/-! ## Room for two buffers -/

/-- Behind events that have room, and of which none stopped the reading, there is room
for more as if these stood alone. -/
theorem hasRoom_append {s : Settings} {first : Buffer} (h : s.hasRoom first = true)
    (hfinished : first.unfinished = none) (rest : Buffer) :
    s.hasRoom (first.append rest) = s.hasRoom rest := by
  rw [hasRoom, hfinished, Option.toList_none, List.append_nil, Bool.or_eq_true,
    Bool.not_eq_true'] at h
  rw [hasRoom, hasRoom, Buffer.append, List.append_assoc, List.any_append]
  rcases h with hfits | hnone
  · rw [hfits, Bool.true_or, Bool.true_or]
  · rw [hnone, Bool.false_or]

/-! ## Two buffers -/

/-- What is decoded of the front of a buffer is the start of what the whole decodes to. -/
theorem decode?_front {s : Settings} {front back : List UInt8} {whole : Decoded}
    (h : s.decode? (front ++ back) = some whole) :
    ∃ first, s.decode? front = some first ∧ first.hits <+: whole.hits ∧
      first.records ≤ whole.records ∧ first.events ≤ whole.events := by
  obtain ⟨hroom, rfl⟩ := decode?_eq_some_iff.1 h
  have hstart : Buffer.StartOf (Buffer.read s.maxRecordWords front)
      (Buffer.read s.maxRecordWords (front ++ back)) := by
    obtain ⟨more, hwords⟩ := Word.ofBytes_prefix_append front back
    rw [Buffer.read, Buffer.read, ← hwords]
    exact Buffer.startOf_readFrom_append s.maxRecordWords more _ 0
  have hfront : s.hasRoom (Buffer.read s.maxRecordWords front) = true := by
    refine hasRoom_of_subset hroom fun e he => ?_
    rw [List.mem_append, Option.mem_toList] at he ⊢
    exact he.imp (fun hin => hstart.events.subset hin) (hstart.unfinished e)
  refine ⟨s.decode front, decode?_eq_some_iff.2 ⟨hfront, rfl⟩, ?_, hstart.records,
    hstart.events.length_le⟩
  obtain ⟨later, hlater⟩ := hstart.events
  refine ⟨later.flatMap s.group, ?_⟩
  rw [decode, decode, decoded, decoded, ← hlater, List.flatMap_append]

/-- A buffer is decoded in the order of its bytes. -/
theorem decode_append (s : Settings) (front back : List UInt8) :
    (∀ whole, s.decode? (front ++ back) = some whole → ∃ first, s.decode? front = some first ∧
      first.hits <+: whole.hits ∧ first.records ≤ whole.records ∧ first.events ≤ whole.events) ∧
    (∀ first, s.decode? front = some first → first.fault = none → front.length % 2 = 0 →
      ¬ Buffer.EndsAtZero s.maxRecordWords (Word.ofBytes front) →
      s.decode? (front ++ back) = (s.decode? back).map fun rest =>
        { hits := first.hits ++ rest.hits
          records := first.records + rest.records
          events := first.events + rest.events
          fault := rest.fault.map (·.shift (front.length / 2)) }) := by
  refine ⟨fun whole => decode?_front, fun first hfirst hfault heven hends => ?_⟩
  obtain ⟨hroom, rfl⟩ := decode?_eq_some_iff.1 hfirst
  obtain ⟨hread, hfinished⟩ := Buffer.readFrom_append hfault hends (Word.ofBytes back)
  rw [← Word.ofBytes_append back heven, Word.length_ofBytes] at hread
  have hrooms : s.hasRoom (Buffer.read s.maxRecordWords (front ++ back)) =
      s.hasRoom (Buffer.read s.maxRecordWords back) := by
    rw [Buffer.read, hread]
    exact hasRoom_append hroom hfinished _
  rw [decode?, decode?]
  simp only [hrooms]
  split
  · rw [Option.map_some, Option.some_inj, Buffer.read, hread]
    simp only [decoded, decode, Buffer.append, Buffer.shift, List.flatMap_append,
      List.length_append]
    rfl
  · rfl

/-- A record with one event. -/
def wholeRecord : List UInt16 := [11, 0, 0x0103, 0, 0, 0, 0x0101, 0, 0x0100, 0x10, 5]

/-- A record with an event, and with a second event that has no room for its block. -/
def tornRecord : List UInt16 :=
  [14, 0, 0x0103, 0, 0, 0, 0x0101, 0, 0x0200, 0x20, 7, 0x0101, 0, 0x0300]

theorem decode_append_tornRecord :
    let front := Word.toBytes wholeRecord
    let back := Word.toBytes tornRecord
    let dump := front ++ back
    (∃ whole first, decode? {} (dump.take 47 ++ dump.drop 47) = some whole ∧
      decode? {} (dump.take 47) = some first ∧ first.hits <+: whole.hits ∧
      first.records ≤ whole.records ∧ first.events ≤ whole.events ∧
      first.hits.length = 1 ∧ whole.hits.length = 2) ∧
    ∃ first rest, decode? {} front = some first ∧ first.fault = none ∧ front.length % 2 = 0 ∧
      ¬ Buffer.EndsAtZero 8192 (Word.ofBytes front) ∧ decode? {} back = some rest ∧
      rest.fault = some (.truncated 14 1 0) ∧
      decode? {} dump = some
        { hits := first.hits ++ rest.hits
          records := first.records + rest.records
          events := first.events + rest.events
          fault := some (.truncated 25 1 0) } := by
  intro front back dump
  have hdecode : ∀ bytes, decode? {} bytes = some (decode {} bytes) := decode?_of_fits rfl
  constructor
  · obtain ⟨first, hfirst, hhits, hrecords, hevents⟩ :=
      (decode_append {} (dump.take 47) (dump.drop 47)).1 _ (hdecode _)
    refine ⟨_, first, hdecode _, hfirst, hhits, hrecords, hevents, ?_, by decide +kernel⟩
    rw [← decode_of_decode? hfirst]
    decide +kernel
  · have hframed : Buffer.Framed 8192 wholeRecord := ⟨rfl, by decide, by decide⟩
    have hends : ¬ Buffer.EndsAtZero 8192 (Word.ofBytes front) := by
      rw [Word.ofBytes_toBytes]
      exact @Buffer.not_endsAtZero_flatten 8192 [wholeRecord] (by simpa using hframed)
    have hfault : (decode {} front).fault = none := by decide +kernel
    have hrest : (decode {} back).fault = some (.truncated 14 1 0) := by decide +kernel
    have hwhole := (decode_append {} front back).2 _ (hdecode _) hfault (by decide) hends
    have hlength : front.length / 2 = 11 := by decide
    rw [hdecode back, Option.map_some, hrest, hlength] at hwhole
    exact ⟨_, _, hdecode _, hfault, by decide, hends, hdecode _, hrest, hwhole⟩

end ListMode.Settings
