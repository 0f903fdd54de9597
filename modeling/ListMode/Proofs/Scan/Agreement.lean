import ListMode.Proofs.Decoder.Hits
import ListMode.Proofs.Record.Interruption
import ListMode.Proofs.Scan.Tiling

/-!
# Scanning and decoding cut alike

A scan counts bytes and a reader counts words, and both follow the rule on the
lengths of records by themselves.  They cut a buffer into the same records.  A
scan finds the records in front of a buffer and then the stop it finds in the
rest (`Scan.scanFrom_flatten_append`).  A reader finds no record in that rest
either, and stops there with the fault that goes with the scan's stop
(`Scan.readFrom_idle`), unless it was stopped in one of the records before.

`Settings.decode_scan` says so of decoding a buffer, and that the consumed part
of a buffer decodes as all of it.
-/

namespace ListMode

/-! ## What a scan finds in front of a buffer -/

namespace Scan

variable {limit : Nat}

/-- Where a record lies that starts at an offset, and its module. -/
def spanAt (offset : Nat) (record : List UInt8) : RecordSpan :=
  ⟨offset, offset + record.length, (Word.ofBytes record).getD 1 0⟩

/-- Where records lie that follow one another from an offset on. -/
def spansFrom (offset : Nat) : List (List UInt8) → List RecordSpan
  | [] => []
  | r :: rs => spanAt offset r :: spansFrom (offset + r.length) rs

theorem length_spansFrom (records : List (List UInt8)) : ∀ offset,
    (spansFrom offset records).length = records.length := by
  induction records with
  | nil => exact fun _ => rfl
  | cons r rs ih =>
      intro offset
      rw [spansFrom, List.length_cons, ih, List.length_cons]

theorem length_boundsFrom (records : List (List UInt8)) : ∀ offset,
    (boundsFrom offset records).length = records.length := by
  induction records with
  | nil => exact fun _ => rfl
  | cons r rs ih =>
      intro offset
      rw [boundsFrom, List.length_cons, ih, List.length_cons]

/-- A whole record is found first, and what stands behind it after it. -/
theorem scanFrom_append {record : List UInt8} (h : WholeRecord limit record) (rest : List UInt8)
    (offset : Nat) : scanFrom limit offset (record ++ rest) =
      let tail := scanFrom limit (offset + record.length) rest
      { tail with records := spanAt offset record :: tail.records } := by
  obtain ⟨heven, hcounts, hcovers, hwithin⟩ := h
  match record with
  | [] => cases hcounts
  | [_] => cases hcounts
  | lo :: hi :: body =>
      rw [Word.ofBytes_cons_cons] at hcounts
      rw [Word.length_ofBytes] at hcovers hwithin
      have hlength : (lo :: hi :: body).length = 2 * (Word.decode lo hi).toNat := by
        have hwords := Option.some.inj hcounts
        simp only [List.length_cons, Word.length_ofBytes] at hwords heven ⊢
        omega
      have hbody : 2 * (Word.decode lo hi).toNat - 2 = body.length := by
        simp only [List.length_cons] at hlength
        omega
      rw [hlength, Nat.mul_div_cancel_left _ Nat.two_pos] at hcovers hwithin
      have hzero : ¬ (Word.decode lo hi).toNat = 0 := by
        simp only [recordHeaderWords] at hcovers
        omega
      have hrange : ¬ ((Word.decode lo hi).toNat < recordHeaderWords ∨
          limit < (Word.decode lo hi).toNat) := by omega
      rw [List.cons_append, List.cons_append, scanFrom]
      simp only [hzero, hrange, if_false, hbody, List.take_left, List.drop_left, Nat.lt_irrefl,
        spanAt, hlength, Word.ofBytes_cons_cons, List.getD_cons_succ]
      match body with
      | [] => rfl
      | [_] => rfl
      | _ :: _ :: _ => simp

/-- Whole records in front of a buffer are found, and then what the rest holds. -/
theorem scanFrom_flatten_append {records : List (List UInt8)}
    (h : ∀ r ∈ records, WholeRecord limit r) (rest : List UInt8) : ∀ offset,
    scanFrom limit offset (records.flatten ++ rest) =
      let tail := scanFrom limit (offset + records.flatten.length) rest
      { tail with records := spansFrom offset records ++ tail.records } := by
  induction records with
  | nil => exact fun _ => rfl
  | cons r rs ih =>
      intro offset
      rw [List.forall_mem_cons] at h
      rw [List.flatten_cons, List.append_assoc, scanFrom_append h.1, ih h.2, List.length_append,
        Nat.add_assoc]
      rfl

theorem even_flatten {records : List (List UInt8)} (h : ∀ r ∈ records, WholeRecord limit r) :
    records.flatten.length % 2 = 0 := by
  induction records with
  | nil => rfl
  | cons r rs ih =>
      rw [List.forall_mem_cons] at h
      rw [List.flatten_cons, List.length_append, Nat.add_mod, h.1.even, ih h.2]

/-- A buffer is the records that a scan finds, and a rest in which it finds none. -/
theorem exists_idle_rest (limit : Nat) (bytes : List UInt8) :
    ∃ (records : List (List UInt8)) (rest : List UInt8), bytes = records.flatten ++ rest ∧
      (∀ r ∈ records, WholeRecord limit r) ∧
      (scan limit bytes).records.length = records.length ∧
      (scan limit bytes).consumed = records.flatten.length ∧
      (scanFrom limit records.flatten.length rest).records = [] ∧
      (scan limit bytes).stop = (scanFrom limit records.flatten.length rest).stop := by
  obtain ⟨records, rest, hbytes, hwhole, hbounds, hconsumed⟩ := scanFrom_tiles limit 0 bytes
  have hscan := scanFrom_flatten_append hwhole rest 0
  rw [← hbytes, Nat.zero_add] at hscan
  have hlength : (scanFrom limit 0 bytes).records.length = records.length := by
    rw [← length_boundsFrom records 0, ← hbounds, List.length_map]
  refine ⟨records, rest, hbytes, hwhole, hlength, ?_, ?_, ?_⟩
  · rwa [Nat.zero_add] at hconsumed
  · rw [hscan, List.length_append, length_spansFrom] at hlength
    exact List.length_eq_zero_iff.1 (by omega)
  · rw [scan, hscan]

/-! ## The rest of a buffer -/

/-- The stop of a scan and the end of a reading are the same place for the same
reason: an end of the data, or a length that is out of range or more than there is. -/
inductive StopAgrees : ScanStop → Option DataFault → Prop
  | complete : StopAgrees .complete none
  | endMarker : StopAgrees .endMarker none
  | badLength (w words limit : Nat) :
      StopAgrees (.badLength (2 * w) words) (some (.recordLength w words limit))
  | truncated (w words limit : Nat) :
      StopAgrees (.truncated (2 * w)) (some (.recordLength w words limit))

theorem StopAgrees.eq_none_iff {stop : ScanStop} {fault : Option DataFault}
    (h : StopAgrees stop fault) : fault = none ↔ stop = .complete ∨ stop = .endMarker := by
  cases h <;> simp

theorem StopAgrees.recordLength_iff {stop : ScanStop} {fault : Option DataFault}
    (h : StopAgrees stop fault) (w : Nat) :
    (∃ words limit, fault = some (.recordLength w words limit)) ↔
      (∃ words, stop = .badLength (2 * w) words) ∨ stop = .truncated (2 * w) := by
  cases h with
  | complete => simp
  | endMarker => simp
  | badLength w' words limit =>
      simp only [Option.some.injEq, DataFault.recordLength.injEq, ScanStop.badLength.injEq,
        reduceCtorEq, or_false]
      constructor
      · rintro ⟨_, _, rfl, -, -⟩
        exact ⟨_, rfl, rfl⟩
      · rintro ⟨_, hw, -⟩
        exact ⟨_, _, by omega, rfl, rfl⟩
  | truncated w' words limit =>
      simp only [Option.some.injEq, DataFault.recordLength.injEq, ScanStop.truncated.injEq,
        reduceCtorEq, exists_false, false_or]
      constructor
      · rintro ⟨_, _, rfl, -, -⟩
        rfl
      · intro hw
        exact ⟨_, _, by omega, rfl, rfl⟩

/-- Where a scan finds no record, a reader reads none and stops for the same reason. -/
theorem readFrom_idle {w : Nat} {bytes : List UInt8}
    (h : (scanFrom limit (2 * w) bytes).records = []) :
    ∃ fault, Buffer.readFrom limit w (Word.ofBytes bytes) = { fault } ∧
      StopAgrees (scanFrom limit (2 * w) bytes).stop fault := by
  match bytes with
  | [] =>
      simp only [Word.ofBytes_nil, Buffer.readFrom, scanFrom]
      exact ⟨none, rfl, .complete⟩
  | [_] =>
      simp only [Word.ofBytes_singleton, Buffer.readFrom, scanFrom]
      exact ⟨none, rfl, .complete⟩
  | lo :: hi :: rest =>
      rw [Word.ofBytes_cons_cons, Buffer.readFrom]
      rw [scanFrom] at h ⊢
      simp only at h ⊢
      by_cases hzero : (Word.decode lo hi).toNat = 0
      · simp only [hzero, if_true]
        exact ⟨none, rfl, .endMarker⟩
      by_cases hrange : (Word.decode lo hi).toNat < recordHeaderWords ∨
          limit < (Word.decode lo hi).toNat
      · simp only [hzero, hrange, if_true, if_false]
        exact ⟨_, rfl, .badLength w _ _⟩
      by_cases hshort : (rest.take (2 * (Word.decode lo hi).toNat - 2)).length <
          2 * (Word.decode lo hi).toNat - 2
      · -- fewer bytes than the record needs are fewer words than it needs, an odd byte or not
        have hwords : (Word.decode lo hi ::
            (Word.ofBytes rest).take ((Word.decode lo hi).toNat - 1)).length <
              (Word.decode lo hi).toNat := by
          simp only [List.length_take, List.length_cons, Word.length_ofBytes] at hshort ⊢
          omega
        simp only [hzero, hrange, hshort, hwords, if_true, if_false]
        exact ⟨_, rfl, .truncated w _ _⟩
      · simp only [hzero, hrange, hshort, if_false] at h
        cases h

end Scan

/-! ## Decoding a buffer and its consumed part -/

namespace Buffer

/-- What a scan finds in a buffer and what a reader reads of it.  Either every record is
read, up to the same stop, or the reading is interrupted in one of them. -/
theorem read_scan (limit : Nat) (bytes : List UInt8) :
    let scan := Scan.scan limit bytes
    let front := read limit (bytes.take scan.consumed)
    let whole := read limit bytes
    front.events = whole.events ∧ front.records = whole.records ∧
      front.unfinished = whole.unfinished ∧
      ((whole.records = scan.records.length ∧ Scan.StopAgrees scan.stop whole.fault) ∨
        (whole.records < scan.records.length ∧ ∃ e, whole.fault = some e ∧ e.Inside)) := by
  intro scan front whole
  obtain ⟨records, rest, hbytes, hwhole, hfound, hconsumed, hidle, hstop⟩ :=
    Scan.exists_idle_rest limit bytes
  have hframed := Scan.framed_of_mem_map hwhole
  have heven := Scan.even_flatten hwhole
  have hflatten := Scan.ofBytes_flatten hwhole
  have hwords : 2 * (0 + (records.map Word.ofBytes).flatten.length) = records.flatten.length := by
    rw [← hflatten, Word.length_ofBytes]
    omega
  have htake : bytes.take scan.consumed = records.flatten := by
    rw [hconsumed, hbytes, List.take_left]
  have hfront : front = readFrom limit 0 (records.map Word.ofBytes).flatten := by
    rw [← hflatten, ← htake]
    rfl
  have hread : whole =
      readFrom limit 0 ((records.map Word.ofBytes).flatten ++ Word.ofBytes rest) := by
    rw [← hflatten, ← Word.ofBytes_append rest heven, ← hbytes]
    rfl
  rw [← hwords] at hidle hstop
  obtain ⟨fault, hrest, hagrees⟩ := Scan.readFrom_idle hidle
  rw [hfront, hread, hstop, hfound, ← List.length_map (f := Word.ofBytes)]
  by_cases hsound : ∀ r ∈ records.map Word.ofBytes, Sound r
  · rw [readFrom_flatten_append hframed hsound, readFrom_flatten hframed hsound, hrest]
    simp only [append, List.append_nil, Nat.add_zero]
    exact ⟨trivial, trivial, trivial, .inl ⟨trivial, hagrees⟩⟩
  · obtain ⟨hsame, hfewer, hinside⟩ :=
      readFrom_interrupted hframed hsound (Word.ofBytes rest) 0
    rw [hsame]
    exact ⟨rfl, rfl, rfl, .inr ⟨hfewer, hinside⟩⟩

end Buffer

namespace Settings

/-- What is decoded beside the fault depends on the events read and on the one begun, and
so does the room for it. -/
theorem decode?_congr (s : Settings) {bytes bytes' : List UInt8}
    (hevents : (Buffer.read s.maxRecordWords bytes).events =
      (Buffer.read s.maxRecordWords bytes').events)
    (hrecords : (Buffer.read s.maxRecordWords bytes).records =
      (Buffer.read s.maxRecordWords bytes').records)
    (hunfinished : (Buffer.read s.maxRecordWords bytes).unfinished =
      (Buffer.read s.maxRecordWords bytes').unfinished) :
    (s.decode? bytes).map (fun d => (d.hits, d.records, d.events)) =
      (s.decode? bytes').map fun d => (d.hits, d.records, d.events) := by
  have hroom : s.hasRoom (Buffer.read s.maxRecordWords bytes) =
      s.hasRoom (Buffer.read s.maxRecordWords bytes') := by
    rw [hasRoom, hasRoom, hevents, hunfinished]
  rw [decode?, decode?]
  simp only [hroom]
  split
  · simp only [Option.map_some, decoded, hevents, hrecords]
  · rfl

/-- A scan and a decoder cut a buffer into the same records, and a buffer decodes to what
its consumed part decodes to. -/
theorem decode_scan (s : Settings) (bytes : List UInt8) :
    let scan := Scan.scan s.maxRecordWords bytes
    let d := s.decode bytes
    d.records ≤ scan.records.length ∧
      ((d.fault = none ∨ ∃ w words limit, d.fault = some (.recordLength w words limit)) →
        d.records = scan.records.length ∧
          (d.fault = none ↔ scan.stop = .complete ∨ scan.stop = .endMarker) ∧
          ∀ w, (∃ words limit, d.fault = some (.recordLength w words limit)) ↔
            (∃ words, scan.stop = .badLength (2 * w) words) ∨ scan.stop = .truncated (2 * w)) ∧
      (s.decode? (bytes.take scan.consumed)).map (fun d => (d.hits, d.records, d.events)) =
        (s.decode? bytes).map fun d => (d.hits, d.records, d.events) := by
  intro scan d
  obtain ⟨hevents, hrecords, hunfinished, hcut⟩ := Buffer.read_scan s.maxRecordWords bytes
  refine ⟨?_, ?_, ?_⟩
  · rcases hcut with ⟨hall, -⟩ | ⟨hfewer, -⟩
    · exact Nat.le_of_eq hall
    · exact Nat.le_of_lt hfewer
  · intro hbetween
    rcases hcut with ⟨hall, hagrees⟩ | ⟨-, e, hfault, hinside⟩
    · exact ⟨hall, hagrees.eq_none_iff, hagrees.recordLength_iff⟩
    · -- a fault inside a record is no fault of a length
      have hfault : d.fault = some e := hfault
      rw [hfault] at hbetween
      rcases hbetween with hnone | ⟨w, words, limit, hlength⟩
      · cases hnone
      · obtain rfl := Option.some.inj hlength
        cases hinside
  · exact s.decode?_congr hevents hrecords hunfinished

/-- A record with one event, and a second record that is cut off inside a word. -/
def cutRecordDump : List UInt8 :=
  Word.toBytes [11, 0, 0x0103, 0, 0, 0, 0x0101, 0, 0x0100, 0x10, 5, 11, 0] ++ [0x03]

theorem decode_scan_cutRecordDump :
    let scan := Scan.scan 8192 cutRecordDump
    let d := decode {} cutRecordDump
    d.fault = some (.recordLength 11 11 2) ∧ d.records = scan.records.length ∧
      scan.stop = .truncated 22 ∧ scan.consumed = 22 ∧ d.hits.length = 1 := by
  intro scan d
  have hfault : d.fault = some (.recordLength 11 11 2) := by decide +kernel
  obtain ⟨hsame, -, hplace⟩ :=
    (decode_scan {} cutRecordDump).2.1 (.inr ⟨11, 11, 2, hfault⟩)
  refine ⟨hfault, hsame, ?_, by decide +kernel, by decide +kernel⟩
  rcases (hplace 11).1 ⟨11, 2, hfault⟩ with ⟨words, hbad⟩ | htruncated
  · have hstop : scan.stop = .truncated 22 := by decide +kernel
    rw [hbad] at hstop
    cases hstop
  · exact htruncated

end Settings

end ListMode
