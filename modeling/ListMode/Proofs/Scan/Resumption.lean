import ListMode.Proofs.Record.Continuation
import ListMode.Proofs.Scan.Agreement

/-!
# Scanning in parts

*Stops.*  A scan stops in front of bytes in which it finds no record.  Which stop it
is can be read off the length of these bytes and their first word (`Scan.StopsAt`).  A
stop at a zero or at a length out of range is decided by the first word alone, so no
further data change it (`Scan.StopsAt.append_of_word`).

*Places.*  A scan does not look at where its bytes lie, so the scan of the rest of
the data is the scan of these bytes by themselves, moved (`Scan.scanFrom_shift`).

*Parts.*  Every byte string is the records of its scan and bytes in front of which the
scan stops (`Scan.exists_stopsAt`).  So the records tile what was consumed
(`Scan.tiled_scan`), and of a scan of the front of the data every record stands.
What is scanned behind them is the bytes that were left over and the bytes that came
later, as one string (`Scan.scan_resumes`).
-/

namespace ListMode

/-! ## Moved scans -/

/-- The place of a record that lies `k` bytes further on. -/
def RecordSpan.shift (k : Nat) (r : RecordSpan) : RecordSpan := ⟨r.start + k, r.stop + k, r.module⟩

/-- The stop of a scan that lies `k` bytes further on. -/
def ScanStop.shift (k : Nat) : ScanStop → ScanStop
  | .complete => .complete
  | .endMarker => .endMarker
  | .badLength offset words => .badLength (offset + k) words
  | .truncated offset => .truncated (offset + k)

namespace Scan

variable {limit offset : Nat} {bytes : List UInt8} {stop : ScanStop}

/-- The scan of bytes that lie `k` bytes further on. -/
def shift (k : Nat) (s : Scan) : Scan := ⟨s.records.map (·.shift k), s.consumed + k, s.stop.shift k⟩

/-- A scan finds the same wherever the bytes lie. -/
theorem scanFrom_shift (limit k offset : Nat) (bytes : List UInt8) :
    scanFrom limit (offset + k) bytes = (scanFrom limit offset bytes).shift k := by
  fun_induction scanFrom limit offset bytes with
  | case1 offset lo hi rest words hzero =>
      rw [scanFrom, if_pos hzero]
      rfl
  | case2 offset lo hi rest words hzero hrange =>
      rw [scanFrom, if_neg hzero, if_pos hrange]
      rfl
  | case3 offset lo hi rest words hzero hrange body hshort =>
      rw [scanFrom, if_neg hzero, if_neg hrange]
      exact if_pos hshort
  | case4 offset lo hi rest words hzero hrange body hlong module tail ih =>
      rw [scanFrom, if_neg hzero, if_neg hrange]
      refine (if_neg hlong).trans ?_
      rw [Nat.add_right_comm, ih]
      rfl
  | case5 offset bytes hbytes =>
      rw [scanFrom]
      · rfl
      · exact hbytes

/-! ## Stops -/

/-- The number of words that the first word of a byte string declares. -/
def declared? (bytes : List UInt8) : Option Nat := (Word.ofBytes bytes).head?.map UInt16.toNat

@[simp] theorem declared?_cons_cons (lo hi : UInt8) (rest : List UInt8) :
    declared? (lo :: hi :: rest) = some (Word.decode lo hi).toNat := by
  rw [declared?, Word.ofBytes_cons_cons]
  rfl

theorem exists_of_declared? {words : Nat} (h : declared? bytes = some words) :
    ∃ lo hi rest, bytes = lo :: hi :: rest ∧ (Word.decode lo hi).toNat = words := by
  match bytes with
  | [] => cases h
  | [_] => cases h
  | lo :: hi :: rest =>
      rw [declared?_cons_cons, Option.some.injEq] at h
      exact ⟨lo, hi, rest, rfl, h⟩

/-- The first word stays first when more bytes come. -/
theorem declared?_append {words : Nat} (h : declared? bytes = some words) (more : List UInt8) :
    declared? (bytes ++ more) = some words := by
  obtain ⟨lo, hi, rest, rfl, rfl⟩ := exists_of_declared? h
  exact declared?_cons_cons lo hi (rest ++ more)

/-- The bytes start with a length that is in range, and end before it is reached. -/
def CutShort (limit : Nat) (bytes : List UInt8) : Prop :=
  ∃ words, declared? bytes = some words ∧ recordHeaderWords ≤ words ∧ words ≤ limit ∧
    bytes.length < 2 * words

/-- How a scan stops in front of bytes that start with no record. -/
inductive StopsAt (limit offset : Nat) (bytes : List UInt8) : ScanStop → Prop where
  | complete (few : bytes.length < 2) : StopsAt limit offset bytes .complete
  | endMarker (zero : declared? bytes = some 0) : StopsAt limit offset bytes .endMarker
  | badLength {words : Nat} (declares : declared? bytes = some words) (nonzero : words ≠ 0)
      (outside : words < recordHeaderWords ∨ limit < words) :
      StopsAt limit offset bytes (.badLength offset words)
  | truncated (cut : CutShort limit bytes) : StopsAt limit offset bytes (.truncated offset)

theorem scanFrom_of_stopsAt (h : StopsAt limit offset bytes stop) :
    scanFrom limit offset bytes = ⟨[], offset, stop⟩ := by
  cases h with
  | complete few =>
      rw [scanFrom]
      rintro lo hi rest rfl
      simp only [List.length_cons] at few
      omega
  | endMarker zero =>
      obtain ⟨lo, hi, rest, rfl, hword⟩ := exists_of_declared? zero
      rw [scanFrom, if_pos hword]
  | badLength declares nonzero outside =>
      obtain ⟨lo, hi, rest, rfl, rfl⟩ := exists_of_declared? declares
      rw [scanFrom, if_neg nonzero, if_pos outside]
  | truncated cut =>
      obtain ⟨words, declares, covers, within, short⟩ := cut
      obtain ⟨lo, hi, rest, rfl, rfl⟩ := exists_of_declared? declares
      have hzero : ¬ (Word.decode lo hi).toNat = 0 := by
        simp only [recordHeaderWords] at covers
        omega
      have hshort : (rest.take (2 * (Word.decode lo hi).toNat - 2)).length <
          2 * (Word.decode lo hi).toNat - 2 := by
        simp only [List.length_cons, List.length_take] at short ⊢
        omega
      rw [scanFrom, if_neg hzero, if_neg (by omega)]
      exact if_pos hshort

theorem stopsAt_of_records_eq_nil :
    (scanFrom limit offset bytes).records = [] →
      StopsAt limit offset bytes (scanFrom limit offset bytes).stop := by
  fun_cases scanFrom limit offset bytes with
  | case1 lo hi rest words hzero =>
      exact fun _ => .endMarker ((declared?_cons_cons lo hi rest).trans (congrArg some hzero))
  | case2 lo hi rest words hzero hrange =>
      exact fun _ => .badLength (declared?_cons_cons lo hi rest) hzero hrange
  | case3 lo hi rest words hzero hrange body hshort =>
      refine fun _ => .truncated ⟨words, declared?_cons_cons lo hi rest, by omega, by omega, ?_⟩
      simp only [body, List.length_take, List.length_cons] at hshort ⊢
      omega
  | case4 lo hi rest words hzero hrange body hlong module tail => exact nofun
  | case5 bytes hbytes =>
      refine fun _ => .complete ?_
      match bytes with
      | [] => exact Nat.two_pos
      | [_] => exact Nat.one_lt_two
      | lo :: hi :: rest => exact absurd rfl (hbytes lo hi rest)

/-- The bytes fix the stop. -/
theorem StopsAt.unique {stop' : ScanStop} (h : StopsAt limit offset bytes stop)
    (h' : StopsAt limit offset bytes stop') : stop = stop' :=
  congrArg Scan.stop ((scanFrom_of_stopsAt h).symm.trans (scanFrom_of_stopsAt h'))

/-- A stop that the first word decides stands when more bytes come. -/
theorem StopsAt.append_of_word (h : StopsAt limit offset bytes stop)
    (word : stop = .endMarker ∨ ∃ o words, stop = .badLength o words) (more : List UInt8) :
    StopsAt limit offset (bytes ++ more) stop := by
  cases h with
  | complete few => rcases word with h | ⟨_, _, h⟩ <;> cases h
  | endMarker zero => exact .endMarker (declared?_append zero more)
  | badLength declares nonzero outside =>
      exact .badLength (declared?_append declares more) nonzero outside
  | truncated cut => rcases word with h | ⟨_, _, h⟩ <;> cases h

/-! ## Records -/

/-- A byte string is the records that a scan finds, and bytes in front of which it stops. -/
theorem exists_stopsAt (limit : Nat) (bytes : List UInt8) :
    ∃ records rest stop, bytes = records.flatten ++ rest ∧ (∀ r ∈ records, WholeRecord limit r) ∧
      StopsAt limit records.flatten.length rest stop ∧
      scan limit bytes = ⟨spansFrom 0 records, records.flatten.length, stop⟩ := by
  obtain ⟨records, rest, hbytes, hwhole, -, -, hidle, -⟩ := exists_idle_rest limit bytes
  have hstop := stopsAt_of_records_eq_nil hidle
  refine ⟨records, rest, _, hbytes, hwhole, hstop, ?_⟩
  rw [scan, hbytes, scanFrom_flatten_append hwhole, Nat.zero_add, scanFrom_of_stopsAt hstop]
  simp only [List.append_nil]

/-- The spans lie one behind the other from one place to another. -/
def Tiled (start : Nat) : List RecordSpan → Nat → Prop
  | [], stop => start = stop
  | r :: rs, stop => r.start = start ∧ Tiled r.stop rs stop

theorem tiled_spansFrom (records : List (List UInt8)) : ∀ offset,
    Tiled offset (spansFrom offset records) (offset + records.flatten.length) := by
  induction records with
  | nil => exact fun _ => rfl
  | cons r rs ih =>
      intro offset
      refine ⟨rfl, ?_⟩
      rw [List.flatten_cons, List.length_append, ← Nat.add_assoc]
      exact ih (offset + r.length)

/-- The records tile what the scan consumed. -/
theorem tiled_scan (limit : Nat) (bytes : List UInt8) :
    let found := scan limit bytes
    Tiled 0 found.records found.consumed := by
  obtain ⟨records, rest, stop, -, -, -, hscan⟩ := exists_stopsAt limit bytes
  have htiled := tiled_spansFrom records 0
  rw [Nat.zero_add] at htiled
  simpa only [hscan] using htiled

/-- Each span is that of a record, behind the records before it. -/
theorem exists_of_mem_spansFrom {records : List (List UInt8)} {span : RecordSpan} :
    ∀ {offset}, span ∈ spansFrom offset records → ∃ before record after,
      records = before ++ record :: after ∧
        span = spanAt (offset + before.flatten.length) record := by
  induction records with
  | nil => exact fun h => absurd h List.not_mem_nil
  | cons r rs ih =>
      intro offset h
      rcases List.mem_cons.1 h with rfl | h
      · exact ⟨[], r, rs, rfl, rfl⟩
      · obtain ⟨before, record, after, rfl, rfl⟩ := ih h
        refine ⟨r :: before, record, after, rfl, ?_⟩
        rw [List.flatten_cons, List.length_append, Nat.add_assoc]

theorem WholeRecord.declared?_append {record : List UInt8} (h : WholeRecord limit record)
    (more : List UInt8) : declared? (record ++ more) = some (record.length / 2) := by
  rw [declared?, Word.ofBytes_append more h.even, h.framed.head?_append, Word.length_ofBytes]

/-- The span of a record is as long as the first word there says. -/
theorem declared?_of_mem_records {span : RecordSpan} (h : span ∈ (scan limit bytes).records) :
    ∃ words, declared? (bytes.drop span.start) = some words ∧ span.stop = span.start + 2 * words ∧
      recordHeaderWords ≤ words ∧ words ≤ limit := by
  obtain ⟨records, rest, stop, hbytes, hwhole, -, hscan⟩ := exists_stopsAt limit bytes
  rw [hscan] at h
  obtain ⟨before, record, after, hrecords, rfl⟩ := exists_of_mem_spansFrom h
  have hrecord := hwhole record (by simp [hrecords])
  have heven := hrecord.even
  have hcovers := hrecord.framed.covers
  have hwithin := hrecord.framed.within
  rw [Word.length_ofBytes] at hcovers hwithin
  have hbehind : bytes.drop before.flatten.length = record ++ (after.flatten ++ rest) := by
    rw [hbytes, hrecords]
    simp
  refine ⟨record.length / 2, ?_, ?_, hcovers, hwithin⟩
  · rw [spanAt, Nat.zero_add, hbehind, hrecord.declared?_append]
  · simp only [spanAt]
    omega

/-! ## The rest of the data -/

theorem consumed_le_length (limit : Nat) (bytes : List UInt8) :
    (scan limit bytes).consumed ≤ bytes.length := by
  obtain ⟨records, rest, stop, hbytes, -, -, hscan⟩ := exists_stopsAt limit bytes
  rw [hscan, hbytes, List.length_append]
  exact Nat.le_add_right ..

/-- Behind the front of the data, a scan goes on with what it left over there and what
comes after the front. -/
theorem scan_append (limit : Nat) (front more : List UInt8) :
    let first := scan limit front
    let second := (scan limit (front.drop first.consumed ++ more)).shift first.consumed
    scan limit (front ++ more) =
      ⟨first.records ++ second.records, second.consumed, second.stop⟩ := by
  obtain ⟨records, rest, stop, hfront, hwhole, -, hscan⟩ := exists_stopsAt limit front
  have hleft : front.drop records.flatten.length = rest := by
    rw [hfront, List.drop_left]
  simp only [hscan, hleft]
  rw [scan, scan, hfront, List.append_assoc, scanFrom_flatten_append hwhole, scanFrom_shift]

/-- What stops at the first word behind the records stops there whatever comes. -/
theorem scan_append_of_word {front : List UInt8} (word : (scan limit front).stop = .endMarker ∨
    ∃ o words, (scan limit front).stop = .badLength o words) (more : List UInt8) :
    scan limit (front ++ more) = scan limit front := by
  obtain ⟨records, rest, stop, hfront, hwhole, hstop, hscan⟩ := exists_stopsAt limit front
  rw [hscan] at word ⊢
  rw [scan, hfront, List.append_assoc, scanFrom_flatten_append hwhole, Nat.zero_add,
    scanFrom_of_stopsAt (hstop.append_of_word word more)]
  simp only [List.append_nil]

/-- The records of a scan tile what it consumed, each as long as it declares.  A scan of
the front of the data stands if a word stopped it, and else goes on where it stopped. -/
theorem scan_resumes (limit : Nat) (bytes : List UInt8) :
    let whole := scan limit bytes
    Tiled 0 whole.records whole.consumed ∧ whole.consumed ≤ bytes.length ∧
      (∀ r ∈ whole.records, ∃ words, declared? (bytes.drop r.start) = some words ∧
        r.stop = r.start + 2 * words ∧ recordHeaderWords ≤ words ∧ words ≤ limit) ∧
      ∀ n, let front := scan limit (bytes.take n)
        let rest := (scan limit (bytes.drop front.consumed)).shift front.consumed
        ((front.stop = .complete ∨ ∃ o, front.stop = .truncated o) →
          whole = ⟨front.records ++ rest.records, rest.consumed, rest.stop⟩) ∧
        ((front.stop = .endMarker ∨ ∃ o words, front.stop = .badLength o words) →
          whole = front) := by
  intro whole
  refine ⟨tiled_scan limit bytes, consumed_le_length limit bytes,
    fun r => declared?_of_mem_records, fun n => ⟨?_, ?_⟩⟩
  · intro _
    have hresumed := scan_append limit (bytes.take n) (bytes.drop n)
    have hwithin := consumed_le_length limit (bytes.take n)
    simp only [← List.drop_append_of_le_length hwithin, List.take_append_drop] at hresumed
    exact hresumed
  · intro hword
    have hstands := scan_append_of_word hword (bytes.drop n)
    rwa [List.take_append_drop] at hstands

/-- Two records of six words, and a zero in place of the length of a third. -/
def markedDump : List UInt8 :=
  Word.toBytes [6, 1, 0, 0, 0, 0, 6, 2, 0, 0, 0, 0, 0, 6]

theorem scan_resumes_markedDump :
    let cut := scan 8192 (markedDump.take 19)
    let marked := scan 8192 (markedDump.take 26)
    let rest := (scan 8192 (markedDump.drop 12)).shift 12
    cut.stop = .truncated 12 ∧ marked.stop = .endMarker ∧ rest.records = [⟨12, 24, 2⟩] ∧
      scan 8192 markedDump = ⟨cut.records ++ rest.records, rest.consumed, rest.stop⟩ ∧
      scan 8192 markedDump = marked := by
  intro cut marked rest
  obtain ⟨-, -, -, hparts⟩ := scan_resumes 8192 markedDump
  have hcut : cut.stop = .truncated 12 := by decide +kernel
  have hmarked : marked.stop = .endMarker := by decide +kernel
  have hconsumed : cut.consumed = 12 := by decide +kernel
  have hresumed := (hparts 19).1 (.inr ⟨12, hcut⟩)
  refine ⟨hcut, hmarked, by decide +kernel, ?_, (hparts 26).2 (.inl hmarked)⟩
  rw [hconsumed] at hresumed
  exact hresumed

end Scan

end ListMode
