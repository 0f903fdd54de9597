import ListMode.Hit.Stream
import ListMode.Proofs.Hit.Layout
import ListMode.Proofs.Word.Bytes

/-!
# Reading a hit stream

No lengths are stored with a hit, the reader takes them from the model of the source
channel.  A hit that is laid out as that model is read back from its bytes, whatever
follows them (`Hit.read_toBytes_append`), and a part of the bytes gives no hit
(`Hit.read_cut`).

Reading one hit after another is a relation between a byte string, the hits read from
its front and the bytes left over (`Hit.Takes`).  The hits in front of a stream are
taken one by one (`Hit.takes_streamOf_append`), so a stream gives its hits and then
ends (`Hit.read_streamOf`).  A stream cut anywhere gives the hits in front of the cut;
the rest of the hit that was cut is an error, unless only a first byte of it was left
(`Hit.read_cutStream`).
-/

namespace ListMode

/-- The bytes that a hit takes behind its source id. -/
def HitModel.bodyLength (m : HitModel) : Nat := 8 + 2 * m.fields.length + 2 * m.traceLength

namespace Hit

variable {models : SourceId → Option HitModel} {m : HitModel} {h : Hit}

/-! ## The bytes of a hit -/

/-- The bytes of a hit behind its source id. -/
def bodyBytes (h : Hit) : List UInt8 :=
  littleEndian 8 h.time.ticks.toNat ++ (Word.toBytes (h.values.map Digitized.raw) ++
    Word.toBytes h.trace.toList)

/-- The source id is stored first and can be told from its bytes. -/
theorem exists_toBytes_eq (h : Hit) : ∃ lo hi, h.toBytes = lo :: hi :: h.bodyBytes ∧
    (Word.decode lo hi).toInt16 = h.source := by
  obtain ⟨lo, hi, henc, hdec⟩ := Word.decode_encode h.source.toUInt16
  refine ⟨lo, hi, ?_, by rw [hdec, Int16.toInt16_toUInt16]⟩
  simp only [toBytes, henc, bodyBytes, Word.toBytes, List.flatMap_map, List.cons_append,
    List.nil_append, List.append_assoc]

theorem LaidOut.length_bodyBytes (hl : h.LaidOut m) : h.bodyBytes.length = m.bodyLength := by
  simp only [bodyBytes, List.length_append, length_littleEndian, Word.length_toBytes,
    List.length_map, hl.length_values, Waveform.length_toList, hl.trace, HitModel.bodyLength,
    Nat.add_assoc]

/-! ## Reading one hit -/

theorem readWords?_toBytes_append {n : Nat} {ws : List UInt16} (hn : ws.length = n)
    (rest : List UInt8) : readWords? n (Word.toBytes ws ++ rest) = some (ws, rest) := by
  have hsplit : splitBytes? (2 * n) (Word.toBytes ws ++ rest) = some (Word.toBytes ws, rest) :=
    splitBytes?_eq_some_iff.2 ⟨by rw [Word.length_toBytes, hn], rfl⟩
  simp only [readWords?, hsplit, Option.map_some, Word.ofBytes_toBytes]

theorem length_of_readWords? {n : Nat} {bytes rest : List UInt8} {ws : List UInt16}
    (hread : readWords? n bytes = some (ws, rest)) : bytes.length = 2 * n + rest.length := by
  rw [readWords?, Option.map_eq_some_iff] at hread
  obtain ⟨⟨front, back⟩, hsplit, hpair⟩ := hread
  obtain ⟨hfront, rfl⟩ := splitBytes?_eq_some_iff.1 hsplit
  obtain ⟨-, rfl⟩ := Prod.mk.inj hpair
  rw [List.length_append, hfront]

/-- A hit that has the layout of the model is read back, whatever follows it. -/
theorem readBody?_bodyBytes_append (hl : h.LaidOut m) (rest : List UInt8) :
    readBody? h.source m (h.bodyBytes ++ rest) = some (h, rest) := by
  have hsplit : splitBytes? 8 (h.bodyBytes ++ rest) = some (littleEndian 8 h.time.ticks.toNat,
      Word.toBytes (h.values.map Digitized.raw) ++ (Word.toBytes h.trace.toList ++ rest)) :=
    splitBytes?_eq_some_iff.2 ⟨length_littleEndian 8 _, by
      rw [bodyBytes, List.append_assoc, List.append_assoc]⟩
  have hticks : UInt64.ofNat (ofLittleEndian (littleEndian 8 h.time.ticks.toNat)) =
      h.time.ticks := by
    have hlt : h.time.ticks.toNat < 256 ^ 8 := h.time.ticks.toNat_lt
    rw [ofLittleEndian_littleEndian, Nat.mod_eq_of_lt hlt, UInt64.ofNat_toNat]
  have hvalues : (h.values.map Digitized.raw).length = m.fields.length := by
    rw [List.length_map, hl.length_values]
  have htrace : h.trace.toList.length = m.traceLength := by
    rw [Waveform.length_toList, hl.trace]
  simp only [readBody?, hsplit, readWords?_toBytes_append hvalues,
    readWords?_toBytes_append htrace, hticks, hl.zipWith_values, ← hl.base,
    Waveform.ofList_toList, Option.bind_eq_bind, Option.bind_some, Option.pure_def]

theorem length_of_readBody? {source : SourceId} {bytes rest : List UInt8}
    (hread : readBody? source m bytes = some (h, rest)) :
    bytes.length = m.bodyLength + rest.length := by
  simp only [readBody?, Option.bind_eq_bind, Option.bind_eq_some_iff, Option.pure_def,
    Option.some.injEq, Prod.exists, Prod.mk.injEq] at hread
  obtain ⟨ticks, behind, hticks, samples, more, hsamples, trace, last, htrace, -, rfl⟩ := hread
  obtain ⟨hfront, rfl⟩ := splitBytes?_eq_some_iff.1 hticks
  rw [List.length_append, hfront, length_of_readWords? hsamples, length_of_readWords? htrace,
    HitModel.bodyLength]
  omega

theorem read_toBytes_append (hm : models h.source = some m) (hl : h.LaidOut m)
    (rest : List UInt8) : read models (h.toBytes ++ rest) = .ok (some (h, rest)) := by
  obtain ⟨lo, hi, hbytes, hsource⟩ := exists_toBytes_eq h
  simp only [hbytes, List.cons_append, read, hsource, hm, readBody?_bodyBytes_append hl]

/-- Of a hit that is cut no hit is read: what is left of it is an error, or looks like
the end where it is too short for a source id. -/
theorem read_cut (hm : models h.source = some m) (hl : h.LaidOut m) {left : List UInt8}
    (hcut : left <+: h.toBytes) (hlt : left.length < h.toBytes.length) :
    read models left = if left.length < 2 then .ok none else .error .cutShort := by
  obtain ⟨lo, hi, hbytes, hsource⟩ := exists_toBytes_eq h
  rw [hbytes] at hcut hlt
  match left with
  | [] => rfl
  | [_] => rfl
  | a :: b :: body =>
      obtain ⟨rfl, hbehind⟩ := List.cons_prefix_cons.1 hcut
      obtain ⟨rfl, -⟩ := List.cons_prefix_cons.1 hbehind
      -- the source id is whole, so the model is known, and too little is left for it
      have hnone : readBody? h.source m body = none := by
        refine Option.eq_none_iff_forall_ne_some.2 fun (hit, rest) hread => ?_
        have hlength := length_of_readBody? hread
        have hbody := hl.length_bodyBytes
        simp only [List.length_cons] at hlt
        omega
      have hlong : ¬ (a :: b :: body).length < 2 := by
        simp only [List.length_cons]
        omega
      simp only [read, hsource, hm, hnone, hlong, if_false]

theorem length_lt_of_read {bytes rest : List UInt8}
    (hread : read models bytes = .ok (some (h, rest))) : rest.length < bytes.length := by
  match bytes with
  | [] => cases hread
  | [_] => cases hread
  | lo :: hi :: body =>
      rw [read] at hread
      split at hread
      next => cases hread
      next m _ =>
          split at hread
          next => cases hread
          next hit hbody =>
              obtain ⟨rfl⟩ := Option.some.inj (Except.ok.inj hread)
              have hlength := length_of_readBody? hbody
              simp only [List.length_cons]
              omega

/-! ## Reading one hit after another -/

/-- The hits are read one after another from the front of a byte string, and bytes are
left over. -/
inductive Takes (models : SourceId → Option HitModel) :
    List UInt8 → List Hit → List UInt8 → Prop where
  /-- Nothing has been read. -/
  | done {bytes : List UInt8} : Takes models bytes [] bytes
  /-- A hit is read and others after it. -/
  | hit {h : Hit} {hits : List Hit} {bytes rest left : List UInt8} :
      read models bytes = .ok (some (h, rest)) → Takes models rest hits left →
      Takes models bytes (h :: hits) left

theorem Takes.length_le {bytes left : List UInt8} {hits : List Hit}
    (ht : Takes models bytes hits left) : hits.length ≤ bytes.length := by
  induction ht with
  | done => exact Nat.zero_le _
  | hit hread _ ih =>
      have hlt := length_lt_of_read hread
      rw [List.length_cons]
      omega

theorem Takes.readUpTo_eq {bytes left : List UInt8} {hits : List Hit}
    (ht : Takes models bytes hits left) (fuel : Nat) :
    readUpTo models (hits.length + fuel) bytes =
      let tail := readUpTo models fuel left
      { tail with hits := hits ++ tail.hits } := by
  induction ht with
  | done => simp only [List.length_nil, Nat.zero_add, List.nil_append]
  | hit hread _ ih =>
      rw [List.length_cons, Nat.add_right_comm, readUpTo, hread]
      simp only [ih, List.cons_append]

theorem Takes.readAll_eq {bytes left : List UInt8} {hits : List Hit}
    (ht : Takes models bytes hits left) : ∃ fuel, readAll models bytes =
      let tail := readUpTo models (fuel + 1) left
      { tail with hits := hits ++ tail.hits } := by
  -- every hit took bytes, so the fuel outlasts the hits
  refine ⟨bytes.length - hits.length, ?_⟩
  have hle := ht.length_le
  have hfuel : bytes.length + 1 = hits.length + (bytes.length - hits.length + 1) := by omega
  rw [readAll, hfuel, ht.readUpTo_eq]

theorem takes_streamOf_append {hits : List Hit} (hb : ∀ h ∈ hits, h.BuiltFrom models)
    (rest : List UInt8) : Takes models (streamOf hits ++ rest) hits rest := by
  induction hits with
  | nil => exact .done
  | cons h hits ih =>
      rw [List.forall_mem_cons] at hb
      obtain ⟨m, hm, hl⟩ := hb.1.laidOut
      refine .hit ?_ (ih hb.2)
      rw [streamOf, List.flatMap_cons, List.append_assoc]
      exact read_toBytes_append hm hl _

/-- A stream of hits that were built from the models of their channels is read back hit
by hit to its last byte, and there reading ends. -/
theorem read_streamOf (models : SourceId → Option HitModel) (hits : List Hit)
    (hb : ∀ h ∈ hits, h.BuiltFrom models) :
    Takes models (streamOf hits) hits [] ∧ read models [] = .ok none ∧
      readAll models (streamOf hits) = ⟨hits, none⟩ := by
  have ht := takes_streamOf_append hb []
  rw [List.append_nil] at ht
  obtain ⟨fuel, hall⟩ := ht.readAll_eq
  refine ⟨ht, rfl, ?_⟩
  rw [hall, readUpTo]
  simp only [read, List.append_nil]

/-- The layout of a channel that records waveforms. -/
def sampledModel : HitModel :=
  { base := .pixie4, fields := [⟨"energy", 16⟩, ⟨"front", 1⟩], traceLength := 4 }

/-- The layout of hits that are not routed. -/
def plainModel : HitModel := { fields := [⟨"psd", 12⟩] }

/-- The models of two source channels. -/
def twoModels (source : SourceId) : Option HitModel :=
  if source = 2 then some sampledModel else if source = -1 then some plainModel else none

/-- A hit after a sample too wide for its field, one for a field that it does not have
and a waveform that is too long. -/
def sampledHit : Hit :=
  built 2 sampledModel
    [.ticks 0x100000001, .value 0 4000, .value 1 3, .value 7 1, .trace [9, 8, 7, 6, 5]]

/-- A hit after samples for a waveform that it does not have. -/
def plainHit : Hit := built (-1) plainModel [.trace [1, 2], .value 0 0x1FFF, .ticks 5]

theorem builtFrom_twoModels :
    ∀ h ∈ [sampledHit, plainHit, sampledHit], h.BuiltFrom twoModels := by
  have hsampled : sampledHit.BuiltFrom twoModels := ⟨sampledModel, _, rfl, rfl⟩
  have hplain : plainHit.BuiltFrom twoModels := ⟨plainModel, _, rfl, rfl⟩
  intro h hmem
  simp only [List.mem_cons, List.not_mem_nil, or_false] at hmem
  obtain rfl | rfl | rfl := hmem
  · exact hsampled
  · exact hplain
  · exact hsampled

/-- Hits of two layouts in turn are read back. -/
theorem read_streamOf_twoModels :
    (∀ h ∈ [sampledHit, plainHit, sampledHit], h.BuiltFrom twoModels) ∧
      (streamOf [sampledHit, plainHit, sampledHit]).length = 22 + 12 + 22 ∧
      Takes twoModels (streamOf [sampledHit, plainHit, sampledHit])
        [sampledHit, plainHit, sampledHit] [] ∧
      read twoModels [] = .ok none ∧
      readAll twoModels (streamOf [sampledHit, plainHit, sampledHit]) =
        ⟨[sampledHit, plainHit, sampledHit], none⟩ :=
  ⟨builtFrom_twoModels, by decide, read_streamOf twoModels _ builtFrom_twoModels⟩

/-! ## A stream that was cut -/

/-- A cut of a stream goes through one of its hits. -/
theorem exists_cut {hits : List Hit} : ∀ {front : List UInt8}, front <+: streamOf hits →
    front ≠ streamOf hits → ∃ before h after left, hits = before ++ h :: after ∧
      front = streamOf before ++ left ∧ left <+: h.toBytes ∧
      left.length < h.toBytes.length := by
  induction hits with
  | nil =>
      intro front hfront hne
      exact absurd (List.prefix_nil.1 hfront) hne
  | cons h hits ih =>
      intro front hfront hne
      have hstream : streamOf (h :: hits) = h.toBytes ++ streamOf hits := List.flatMap_cons
      rw [hstream] at hfront hne
      -- the cut is in the first hit, or the first hit is in front of it
      by_cases hlt : front.length < h.toBytes.length
      · have hcut := List.prefix_of_prefix_length_le hfront (List.prefix_append _ _)
          (Nat.le_of_lt hlt)
        exact ⟨[], h, hits, front, rfl, rfl, hcut, hlt⟩
      · obtain ⟨behind, rfl⟩ :=
          List.prefix_of_prefix_length_le (List.prefix_append _ _) hfront (Nat.le_of_not_lt hlt)
        obtain ⟨before, hit, after, left, rfl, rfl, hcut, hshort⟩ :=
          ih ((List.prefix_append_right_inj _).1 hfront) fun heq => hne (by rw [heq])
        refine ⟨h :: before, hit, after, left, rfl, ?_, hcut, hshort⟩
        rw [streamOf, streamOf, List.flatMap_cons, List.append_assoc]

/-- A stream that was cut gives the hits that are wholly in front of the cut.  Then
reading ends where nothing or a single byte is left of the next hit, and is an error
where more is left. -/
theorem read_cutStream (models : SourceId → Option HitModel) (hits : List Hit)
    (hb : ∀ h ∈ hits, h.BuiltFrom models) (front : List UInt8) (hfront : front <+: streamOf hits)
    (hne : front ≠ streamOf hits) : ∃ before h after left, hits = before ++ h :: after ∧
      front = streamOf before ++ left ∧ left <+: h.toBytes ∧ left.length < h.toBytes.length ∧
      Takes models front before left ∧
      read models left = (if left.length < 2 then .ok none else .error .cutShort) ∧
      readAll models front = ⟨before, if left.length < 2 then none else some .cutShort⟩ := by
  obtain ⟨before, h, after, left, rfl, rfl, hcut, hlt⟩ := exists_cut hfront hne
  obtain ⟨hbefore, hb⟩ := List.forall_mem_append.1 hb
  obtain ⟨m, hm, hl⟩ := (List.forall_mem_cons.1 hb).1.laidOut
  have ht := takes_streamOf_append hbefore left
  have hread := read_cut hm hl hcut hlt
  obtain ⟨fuel, hall⟩ := ht.readAll_eq
  refine ⟨before, h, after, left, rfl, rfl, hcut, hlt, ht, hread, ?_⟩
  rw [hall, readUpTo, hread]
  by_cases hshort : left.length < 2
  · simp only [hshort, if_true, List.append_nil]
  · simp only [hshort, if_false, List.append_nil]

/-- A stream cut inside the waveform of its last hit. -/
theorem read_cutStream_insideTrace :
    (∀ h ∈ [sampledHit, plainHit, sampledHit], h.BuiltFrom twoModels) ∧
      ∃ before h after left, [sampledHit, plainHit, sampledHit] = before ++ h :: after ∧
        (streamOf [sampledHit, plainHit, sampledHit]).take 51 = streamOf before ++ left ∧
        left <+: h.toBytes ∧ left.length < h.toBytes.length ∧
        Takes twoModels ((streamOf [sampledHit, plainHit, sampledHit]).take 51) before left ∧
        read twoModels left = (if left.length < 2 then .ok none else .error .cutShort) ∧
        readAll twoModels ((streamOf [sampledHit, plainHit, sampledHit]).take 51) =
          ⟨before, if left.length < 2 then none else some .cutShort⟩ :=
  ⟨builtFrom_twoModels, read_cutStream twoModels _ builtFrom_twoModels _
    (List.take_prefix 51 _) (by decide)⟩

example : readAll twoModels ((streamOf [sampledHit, plainHit, sampledHit]).take 51) =
    ⟨[sampledHit, plainHit], some .cutShort⟩ := by decide

/-- A stream cut behind the first byte of its second hit, which is at no end of a hit,
reads like a stream of one hit. -/
theorem readAll_cutInsideId :
    (∀ h ∈ [sampledHit, plainHit, sampledHit], h.BuiltFrom twoModels) ∧
      streamOf [sampledHit] ++ [0xFF] <+: streamOf [sampledHit, plainHit, sampledHit] ∧
      streamOf [sampledHit] ++ [0xFF] ≠ streamOf [sampledHit, plainHit, sampledHit] ∧
      (∀ before ∈ [sampledHit, plainHit, sampledHit].inits,
        streamOf [sampledHit] ++ [0xFF] ≠ streamOf before) ∧
      readAll twoModels (streamOf [sampledHit] ++ [0xFF]) = ⟨[sampledHit], none⟩ := by
  refine ⟨builtFrom_twoModels, by decide, by decide, by decide, by decide⟩

end Hit

end ListMode
