import ListMode.Proofs.Scan.Resumption

/-!
# What a scan leaves over

The stop of a scan is all that a caller learns of the bytes behind the last record, and
these bytes fix it (`Scan.StopsAt`).  A record that is cut short is reported with its
place (`Scan.StopsAt.eq_truncated_iff`).  Fewer than two bytes are called complete
(`Scan.StopsAt.eq_complete_iff`): that is right when there are none, and hides a single
byte, which is half of a record's length (`Scan.lone_byte_unreported`).  Behind a scan
that leaves any other number of bytes, the stop tells complete data from data that are
cut off (`Scan.stop_of_leftover`).
-/

namespace ListMode.Scan

variable {limit offset : Nat} {bytes : List UInt8} {stop : ScanStop}

/-! ## Stops and the bytes behind them -/

theorem CutShort.ne_nil (h : CutShort limit bytes) : bytes ≠ [] := by
  obtain ⟨words, declares, -⟩ := h
  obtain ⟨lo, hi, rest, rfl, -⟩ := exists_of_declared? declares
  exact List.cons_ne_nil lo _

theorem StopsAt.eq_complete_iff (h : StopsAt limit offset bytes stop) :
    stop = .complete ↔ bytes.length < 2 := by
  constructor
  · rintro rfl
    cases h with
    | complete few => exact few
  · exact fun few => h.unique (.complete few)

theorem StopsAt.eq_truncated_iff (h : StopsAt limit offset bytes stop) (o : Nat) :
    stop = .truncated o ↔ o = offset ∧ CutShort limit bytes := by
  constructor
  · rintro rfl
    cases h with
    | truncated cut => exact ⟨rfl, cut⟩
  · rintro ⟨rfl, cut⟩
    exact h.unique (.truncated cut)

/-- A scan stops in front of what it did not consume. -/
theorem stopsAt_leftover (limit : Nat) (bytes : List UInt8) :
    let found := scan limit bytes
    StopsAt limit found.consumed (bytes.drop found.consumed) found.stop := by
  obtain ⟨records, rest, stop, hbytes, -, hstop, hscan⟩ := exists_stopsAt limit bytes
  have hleft : bytes.drop records.flatten.length = rest := by
    rw [hbytes, List.drop_left]
  simpa only [hscan, hleft] using hstop

/-! ## Data that are cut off -/

/-- The bytes are the start of a record and not a whole one: too few for its length, or
fewer than the length that they start with. -/
def PartOfRecord (limit : Nat) (bytes : List UInt8) : Prop :=
  bytes ≠ [] ∧ (bytes.length < 2 ∨ CutShort limit bytes)

/-- Unless a single byte is left over, a scan is complete if nothing is, and is cut off at
the end of the last record if part of a record is.  A single byte is called complete. -/
theorem stop_of_leftover (limit : Nat) (bytes : List UInt8) :
    let found := scan limit bytes
    let left := bytes.drop found.consumed
    (left.length ≠ 1 → (found.stop = .complete ↔ found.consumed = bytes.length) ∧
      ∀ o, found.stop = .truncated o ↔ o = found.consumed ∧ PartOfRecord limit left) ∧
    (left.length = 1 → found.stop = .complete) := by
  intro found left
  have hstop : StopsAt limit found.consumed left found.stop := stopsAt_leftover limit bytes
  have hwithin : found.consumed ≤ bytes.length := consumed_le_length limit bytes
  have hlength : left.length = bytes.length - found.consumed := List.length_drop
  refine ⟨fun hone => ⟨?_, fun o => ?_⟩, fun hone => ?_⟩
  · rw [hstop.eq_complete_iff]
    omega
  · rw [hstop.eq_truncated_iff, PartOfRecord]
    refine and_congr_right fun _ => ⟨fun cut => ⟨cut.ne_nil, .inr cut⟩, ?_⟩
    rintro ⟨hne, few | cut⟩
    · have hpos := List.length_pos_iff.2 hne
      omega
    · exact cut
  · rw [hstop.eq_complete_iff]
    omega

/-- A record of six words, and the first seven bytes of another one. -/
def interruptedDump : List UInt8 := Word.toBytes [6, 0, 0, 0, 0, 0, 6, 1, 0] ++ [7]

theorem stop_of_leftover_interruptedDump :
    let found := scan 8192 interruptedDump
    (interruptedDump.drop found.consumed).length ≠ 1 ∧ found.stop = .truncated 12 ∧
      PartOfRecord 8192 (interruptedDump.drop 12) ∧ found.stop ≠ .complete := by
  intro found
  have hone : (interruptedDump.drop found.consumed).length ≠ 1 := by decide +kernel
  have hstop : found.stop = .truncated 12 := by decide +kernel
  obtain ⟨hcomplete, htruncated⟩ := (stop_of_leftover 8192 interruptedDump).1 hone
  obtain ⟨hconsumed, hpart⟩ := (htruncated 12).1 hstop
  rw [← hconsumed] at hpart
  exact ⟨hone, hstop, hpart, fun h => absurd (hcomplete.1 h) (by decide +kernel)⟩

/-- A record of six words, and the first byte of another one. -/
def loneByteDump : List UInt8 := Word.toBytes [6, 0, 0, 0, 0, 0] ++ [6]

/-- The byte of the second record is left over, and the scan calls the data complete. -/
theorem lone_byte_unreported :
    let found := scan 8192 loneByteDump
    ¬ (found.stop = .complete ↔ found.consumed = loneByteDump.length) ∧
      ¬ (found.stop = .truncated found.consumed ↔
        PartOfRecord 8192 (loneByteDump.drop found.consumed)) := by
  intro found
  have hfound : found = ⟨[⟨0, 12, 0⟩], 12, .complete⟩ := by decide +kernel
  rw [hfound]
  refine ⟨by decide, fun h => ?_⟩
  have hpart : PartOfRecord 8192 (loneByteDump.drop 12) := ⟨by decide, .inl (by decide)⟩
  exact absurd (h.2 hpart) (by decide)

end ListMode.Scan
